import BraceTemplate.Proofs.Members
import BraceTemplate.Proofs.Rendering.Blocks
import BraceTemplate.Proofs.Rendering.Truncation

/-!
# Turns of a loop

The block `each` renders its body in one frame for each member of its argument, in order, until one
of these turns fails. `Turns` says what the turns write until then, and by `each_renders_turns` the
block writes these texts one after the other and ends as its last turn did.
-/

namespace BraceTemplate

/-! ## Rendering in one frame after the other -/

/-- What a body writes that is rendered in one frame after the other and ends well in all of them: a
text for each of the frames. -/
inductive Turns (body : Frame → Render Unit) :
    List Frame → Configuration → List String → Configuration → Prop
  | done {configuration : Configuration} : Turns body [] configuration [] configuration
  | next {configuration between after : Configuration} {frame : Frame} {frames : List Frame}
    {text : String} {texts : List String}
    (hturn : Yields (body frame) configuration (.ok ()) text between)
    (hturns : Turns body frames between texts after) :
    Turns body (frame :: frames) configuration (text :: texts) after

/-- How rendering a body in one frame after the other comes out, if it comes to that of its turns. -/
inductive LoopOutcome (body : Frame → Render Unit) (frames : List Frame)
    (configuration : Configuration) (loop : Render Unit) : Prop
  /-- All turns end well, and what they write is written one after the other. -/
  | finished {texts : List String} {after : Configuration}
    (hturns : Turns body frames configuration texts after)
    (hloop : Yields loop configuration (.ok ()) (String.join texts) after)
  /-- A turn fails for the first time. Its error ends the loop, after what the earlier turns wrote
  and what it has written itself. -/
  | failed {passed left : List Frame} {frame : Frame} {texts : List String} {text : String}
    {between after : Configuration} {error : Error} (hframes : frames = passed ++ frame :: left)
    (hturns : Turns body passed configuration texts between)
    (hturn : Yields (body frame) between (.error error) text after)
    (hloop : Yields loop configuration (.error error) (String.join texts ++ text) after)
  /-- A turn has no end on a sink without a limit, and neither has the loop. -/
  | endless {passed left : List Frame} {frame : Frame} {texts : List String}
    {between : Configuration} (hframes : frames = passed ++ frame :: left)
    (hturns : Turns body passed configuration texts between)
    (hturn : ∀ written, body frame ⟨.unlimited written, between⟩ = none)
    (hloop : ∀ written, loop ⟨.unlimited written, configuration⟩ = none)

section

variable {body : Frame → Render Unit} {configuration : Configuration}

/-- A turn that ends well comes before the other turns of a loop. -/
theorem LoopOutcome.cons {frame : Frame} {frames : List Frame} {text : String}
    {between : Configuration} (hturn : Yields (body frame) configuration (.ok ()) text between)
    (h : LoopOutcome body frames between (frames.forM body)) :
    LoopOutcome body (frame :: frames) configuration ((frame :: frames).forM body) := by
  -- The turns go on as they did; only what is written before them is now in front.
  cases h with
  | finished hturns hloop =>
    refine .finished (.next hturn hturns) ?_
    rw [String.join_cons]
    exact hturn.bind hloop
  | failed hframes hturns hfailed hloop =>
    subst hframes
    refine .failed rfl (.next hturn hturns) hfailed ?_
    rw [String.join_cons, String.append_assoc]
    exact hturn.bind hloop
  | endless hframes hturns hendless hloop =>
    subst hframes
    refine .endless rfl (.next hturn hturns) hendless fun written => ?_
    show (body frame >>= fun _ => _) _ = none
    rw [Render.bind_apply, hturn.unlimited]
    exact hloop _

/-- Rendering a body in one frame after the other comes out as its turns do. -/
theorem loopOutcome_forM (hbody : ∀ frame configuration, YieldsFrom configuration (body frame))
    (frames : List Frame) (configuration : Configuration) :
    LoopOutcome body frames configuration (frames.forM body) := by
  -- A turn begins with the registries that the one before it has left.
  induction frames generalizing configuration with
  | nil => exact .finished .done (.of_ended fun _ => rfl)
  | cons frame frames ih =>
    rcases hbody frame configuration with ⟨result, text, between, hturn⟩ | hendless
    · cases result with
      | ok _ => exact (ih between).cons hturn
      | error error =>
        refine .failed rfl .done hturn ?_
        rw [String.join_nil, String.empty_append]
        exact hturn.bind_error
    · refine .endless rfl .done hendless fun written => ?_
      show (body frame >>= fun _ => _) _ = none
      rw [Render.bind_apply, hendless]

theorem LoopOutcome.congr {frames : List Frame} {loop other : Render Unit}
    (h : LoopOutcome body frames configuration loop)
    (hsame : ∀ sink, other ⟨sink, configuration⟩ = loop ⟨sink, configuration⟩) :
    LoopOutcome body frames configuration other := by
  cases h with
  | finished hturns hloop => exact .finished hturns (hloop.congr hsame)
  | failed hframes hturns hturn hloop => exact .failed hframes hturns hturn (hloop.congr hsame)
  | endless hframes hturns hturn hloop =>
    exact .endless hframes hturns hturn fun written => (hsame _).trans (hloop written)

end

/-! ## The turns of a loop -/

namespace BuiltIn

/-- The scopes of the turns of a loop over a value. -/
def loopScopes : Value → List Scope
  | .array items => itemScopes items
  | .object members => memberScopes members
  | _ => []

/-- A loop without turns is one over a value without members. -/
theorem length_loopScopes (collection : Value) :
    (loopScopes collection).length = collection.memberNames.length := by
  cases collection with
  | array items => simp [loopScopes, itemScopes, Value.memberNames]
  | object members => simp [loopScopes, memberScopes, Value.memberNames, Table.keys]
  | _ => rfl

end BuiltIn

open BuiltIn (loopScopes length_loopScopes)

/-- The key that a turn of a loop gives for the member of a name: none in a loop over an array. -/
def Value.turnKey : Value → String → Option String
  | .object _, name => some name
  | _, _ => none

/-- The frames of the turns of a loop over a value, in the frame of the block. -/
def turnFrames (frame : Frame) (collection : Value) : List Frame :=
  (loopScopes collection).map (·.enter frame)

theorem length_turnFrames (frame : Frame) (collection : Value) :
    (turnFrames frame collection).length = collection.memberNames.length := by
  rw [turnFrames, List.length_map, length_loopScopes]

/-- The frame of a turn holds the member that the turn is for, and counts the turn. -/
theorem turnFrames_getElem? {collection : Value} (hdata : collection.IsData) (frame : Frame)
    {index : Nat} {name : String} (hname : collection.memberNames[index]? = some name) :
    ∃ value, collection.member? name = some value ∧
      (turnFrames frame collection)[index]? = some (.child frame value (some
        { index, first := index == 0, last := index + 1 == collection.memberNames.length
          key := collection.turnKey name })) := by
  cases collection with
  -- The name of an item is its index, which the bound on data keeps readable.
  | array items =>
    have hlength : (Value.array items).memberNames.length = items.length := by
      simp [Value.memberNames]
    rw [Value.memberNames, List.getElem?_map, Option.map_eq_some_iff] at hname
    obtain ⟨found, hfound, rfl⟩ := hname
    obtain ⟨hrange, rfl⟩ := List.getElem?_eq_some_iff.1 hfound
    have hindex : index < items.length := by rwa [List.length_range] at hrange
    have hitem : items[index]? = some items[index] := List.getElem?_eq_getElem hindex
    refine ⟨items[index], ?_, ?_⟩
    · rw [List.getElem_range, Value.member?_indexName items (hindex.trans_le hdata), hitem]
    · rw [turnFrames, loopScopes, BuiltIn.itemScopes, List.getElem?_map, List.getElem?_map,
        List.getElem?_zipIdx, hitem, hlength, Nat.zero_add]
      rfl
  | object members =>
    rw [Value.memberNames, Table.keys, List.getElem?_map, Option.map_eq_some_iff] at hname
    obtain ⟨⟨name, value⟩, hmember, rfl⟩ := hname
    refine ⟨value, Table.find?_of_mem hdata (List.mem_of_getElem? hmember), ?_⟩
    rw [turnFrames, loopScopes, BuiltIn.memberScopes, List.getElem?_map, List.getElem?_map,
      List.getElem?_zipIdx, hmember, Nat.zero_add, Value.memberNames, Table.keys, List.length_map]
    rfl
  | _ => cases hname

theorem run_eachBlock (frame : Frame) (collection : Value) (hasInverse : Bool)
    (renderPart : BodyPart → Frame → Render Unit) :
    (BuiltIn.eachBlock frame [collection] hasInverse).run frame renderPart =
      if collection.memberNames = [] then renderPart .inverse frame
      else (turnFrames frame collection).forM (renderPart .body) := by
  have hempty : (loopScopes collection).isEmpty = true ↔ collection.memberNames = [] := by
    rw [List.isEmpty_iff_length_eq_zero, length_loopScopes, List.length_eq_zero_iff]
  show (if (loopScopes collection).isEmpty then BuiltIn.renderInverse
    else Script.renderEach (loopScopes collection)).run frame renderPart = _
  rw [run_loop]
  simp only [hempty]
  rfl

/-- The block `each` renders its body in one frame for each member of its argument, in the order of
their names. The frame of a turn is in the frame of the block, holds the member and counts the turn,
and has a key only in a loop over an object. The turns are rendered until one of them fails, and if
there are none then the inverse body is rendered once, in the frame of the block. -/
theorem each_renders_turns (frame : Frame) (collection : Value) :
    let frames := turnFrames frame collection
    (frames.length = collection.memberNames.length ∧
      ∀ (index : Nat) (name : String), collection.IsData →
        collection.memberNames[index]? = some name →
        ∃ value, collection.member? name = some value ∧
          frames[index]? = some (.child frame value (some
            { index, first := index == 0, last := index + 1 == collection.memberNames.length
              key := collection.turnKey name }))) ∧
      (∀ (hasInverse : Bool) (renderPart : BodyPart → Frame → Render Unit),
        (BuiltIn.eachBlock frame [collection] hasInverse).run frame renderPart =
          if collection.memberNames = [] then renderPart .inverse frame
          else frames.forM (renderPart .body)) ∧
      ∀ (configuration : Configuration) (depth : Nat) (argument : Argument) (body : Template)
        (inverse : Option Template),
        configuration.findBlock? "each" = some BuiltIn.eachBlock →
        (argument.value? frame).getD .null = collection →
        let call := Template.render (depth + 1) [.blockCall "each" [argument] body inverse] frame
        if collection.memberNames = [] then
          ∀ sink, call ⟨sink, configuration⟩ =
            match inverse with
            | some nodes => Template.render (depth + 1) nodes frame ⟨sink, configuration⟩
            | none => some (.ok (), ⟨sink, configuration⟩)
        else LoopOutcome (Template.render (depth + 1) body) frames configuration call := by
  intro frames
  refine ⟨⟨length_turnFrames frame collection, fun index name hdata hname => ?_⟩,
    fun hasInverse renderPart => run_eachBlock frame collection hasInverse renderPart, ?_⟩
  · exact turnFrames_getElem? hdata frame hname
  rintro configuration depth argument body inverse heach rfl call
  -- The call of the built-in is its script, run over the frames of the turns.
  have hcall : ∀ sink, call ⟨sink, configuration⟩ =
      (if ((argument.value? frame).getD .null).memberNames = [] then
        renderInverse (Template.render depth) inverse frame
      else frames.forM (Template.render (depth + 1) body)) ⟨sink, configuration⟩ := by
    intro sink
    show Template.render (depth + 1) _ _ _ = _
    rw [render_singleton, renderNode_blockCall _ _ _ _ _ _ heach, run_eachBlock]
    rfl
  split
  · next hempty =>
    intro sink
    rw [hcall, if_pos hempty]
    cases inverse <;> rw [renderInverse] <;> rfl
  · next hmembers =>
    refine (loopOutcome_forM (fun frame configuration =>
      yieldsFrom_render (depth + 1) body frame configuration) frames configuration).congr ?_
    intro sink
    rw [hcall, if_neg hmembers]

/-- A loop over an object whose body fails in the last turn, after it has written the key. -/
theorem each_renders_turns_object :
    let collection : Value := .object [("a", .string "x"), ("b", .string "y")]
    let frame : Frame := .root (.object [("c", collection)])
    let condition : Argument := .truth (.path (Path.ofWord "@last"))
    let body : Template :=
      [.output (Path.ofWord "@key"), .blockCall "if" [condition] [.inlineCall "nope" []] none]
    let call := Template.render 1 [.blockCall "each" [.path (Path.ofWord "c")] body none] frame
    let frames : List Frame :=
      [.child frame (.string "x") (some ⟨0, true, false, some "a"⟩),
        .child frame (.string "y") (some ⟨1, false, true, some "b"⟩)]
    turnFrames frame collection = frames ∧
      (∃ value, collection.member? "b" = some value ∧
        frames[1]? = some (.child frame value (some ⟨1, false, true, some "b"⟩))) ∧
      LoopOutcome (Template.render 1 body) frames .builtIn call ∧
      call ⟨.unlimited "", .builtIn⟩ =
        some (.error (.missingHelper "nope"), ⟨.unlimited "ab", .builtIn⟩) := by
  intro collection frame condition body call frames
  have hdata : collection.IsData := List.pairwise_pair.2 (by decide)
  obtain ⟨⟨-, hframes⟩, -, hcalls⟩ := each_renders_turns frame collection
  exact ⟨rfl, hframes 1 "b" hdata rfl, hcalls .builtIn 0 (.path (Path.ofWord "c")) body none rfl rfl,
    rfl⟩

end BraceTemplate
