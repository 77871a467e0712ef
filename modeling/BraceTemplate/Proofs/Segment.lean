import BraceTemplate.Token

/-!
# Segments

A list of tokens as an alternation of texts and tags. `Segment.ofTokens` finds the tags of a token
list, and `ofTokens_flatMap_toTokens` shows that it finds all of them as they were put together.
-/

namespace BraceTemplate

/-- Something outside of all tags, or a tag. -/
inductive Segment (σ τ : Type) where
  | outside (content : σ)
  | tag (content : τ)
  deriving Repr, DecidableEq, Inhabited

namespace Segment

/-! ## Segments of a token list -/

/-- The pieces up to the next brace or text, and the segments after them. -/
def gather : List Token → List Piece × List (Segment String (List Piece))
  | [] => ([], [])
  | .text content :: tokens => ([], .outside content :: (gather tokens).2)
  | .tagOpen :: tokens => let (pieces, segments) := gather tokens; ([], .tag pieces :: segments)
  | .tagClose :: tokens => ([], (gather tokens).2)
  | .piece piece :: tokens =>
    let (pieces, segments) := gather tokens
    (piece :: pieces, segments)

/-- The texts and the tags of a list of tokens, each tag with its pieces. -/
def ofTokens (tokens : List Token) : List (Segment String (List Piece)) :=
  (gather tokens).2

/-- The content of a tag. -/
def tag? {σ τ : Type} : Segment σ τ → Option τ
  | .outside _ => none
  | .tag content => some content

/-- The pieces of the tags in a list of tokens, tag by tag. -/
def tags (tokens : List Token) : List (List Piece) :=
  (ofTokens tokens).filterMap tag?

/-- The tokens of a segment. -/
def toTokens : Segment String (List Piece) → List Token
  | .outside content => [.text content]
  | .tag pieces => .tagOpen :: pieces.map .piece ++ [.tagClose]

theorem ofTokens_text (content : String) (tokens : List Token) :
    ofTokens (.text content :: tokens) = .outside content :: ofTokens tokens := rfl

theorem gather_pieces (pieces : List Piece) (tokens : List Token) :
    gather (pieces.map .piece ++ .tagClose :: tokens) = (pieces, ofTokens tokens) := by
  induction pieces with
  | nil => rfl
  | cons piece pieces ih => rw [List.map_cons, List.cons_append, gather, ih]

/-- A tag of the token list is one segment, which holds its pieces. -/
theorem ofTokens_tag (pieces : List Piece) (tokens : List Token) :
    ofTokens (.tagOpen :: (pieces.map .piece ++ .tagClose :: tokens)) =
      .tag pieces :: ofTokens tokens := by
  rw [ofTokens, gather, gather_pieces]

/-- Segments are found again in their tokens. -/
theorem ofTokens_flatMap_toTokens (segments : List (Segment String (List Piece))) :
    ofTokens (segments.flatMap toTokens) = segments := by
  induction segments with
  | nil => rfl
  | cons segment segments ih =>
    rw [List.flatMap_cons]
    cases segment with
    | outside content => rw [toTokens, List.singleton_append, ofTokens_text, ih]
    | tag pieces =>
      rw [toTokens, List.cons_append, List.cons_append, List.append_assoc, List.singleton_append,
        ofTokens_tag, ih]

theorem mem_filterMap_tag? {pieces : List Piece} {segments : List (Segment String (List Piece))} :
    pieces ∈ segments.filterMap tag? ↔ .tag pieces ∈ segments := by
  rw [List.mem_filterMap]
  constructor
  · rintro ⟨segment, hmem, hsegment⟩
    cases segment with
    | outside content => cases hsegment
    | tag content =>
      cases hsegment
      exact hmem
  · intro hmem
    exact ⟨_, hmem, rfl⟩

end Segment

end BraceTemplate
