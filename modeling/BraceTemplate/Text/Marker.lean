/-! # Markers in a text

Cutting a text at the first place where a marker such as a pair of braces stands. The two
parts put together are the text again, and the first part holds no marker.
-/

namespace BraceTemplate.Text

/-- The text before the first `marker`, and the text from that marker on. -/
def splitAtMarker (marker : List Char) : List Char → Option (List Char × List Char)
  | [] => if marker.isPrefixOf [] then some ([], []) else none
  | c :: cs =>
    if marker.isPrefixOf (c :: cs) then
      some ([], c :: cs)
    else
      (splitAtMarker marker cs).map fun (before, rest) => (c :: before, rest)

/-- Nothing is lost at the cut, and the second part begins with the marker. -/
theorem splitAtMarker_eq_some {marker cs before rest : List Char}
    (h : splitAtMarker marker cs = some (before, rest)) :
    before ++ rest = cs ∧ marker <+: rest := by
  induction cs generalizing before with
  | nil =>
    simp only [splitAtMarker] at h
    split at h
    · next hm => cases h; exact ⟨rfl, List.isPrefixOf_iff_prefix.1 hm⟩
    · cases h
  | cons c cs ih =>
    simp only [splitAtMarker] at h
    split at h
    · next hm => cases h; exact ⟨rfl, List.isPrefixOf_iff_prefix.1 hm⟩
    · obtain ⟨⟨b, r⟩, hb, heq⟩ := Option.map_eq_some_iff.1 h
      cases heq
      obtain ⟨happ, hpre⟩ := ih hb
      exact ⟨by rw [List.cons_append, happ], hpre⟩

/-- There is no cut exactly when the marker stands nowhere in the text. -/
theorem splitAtMarker_eq_none_iff {marker cs : List Char} :
    splitAtMarker marker cs = none ↔ ¬ marker <:+: cs := by
  induction cs with
  | nil =>
    simp [splitAtMarker]
  | cons c cs ih =>
    simp only [splitAtMarker, List.infix_cons_iff]
    split
    · next hm => simp [List.isPrefixOf_iff_prefix.1 hm]
    · next hm =>
      have hnot : ¬ marker <+: c :: cs := fun hp => hm (List.isPrefixOf_iff_prefix.2 hp)
      simp [hnot, ih]

end BraceTemplate.Text
