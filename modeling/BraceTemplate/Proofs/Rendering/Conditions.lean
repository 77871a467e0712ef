import BraceTemplate.Proofs.Registering.Recording

/-!
# Conditions that are tested

When a template is read, the first argument of a block `if` or `unless` is replaced by its truth,
which the block tests again. `render_testAll` says that this changes nothing: a template is rendered
as it is with its conditions tested, as long as the render finds these two names unregistered or
with the built-in blocks.
-/

namespace BraceTemplate

/-! ## Blocks that test their argument -/

/-- The truth of a value that may be undefined counts as the value does. -/
theorem Value.isTruthy_truth (value : Option Value) :
    (Value.bool (isDefinedTruthy value)).isTruthy = (value.getD .null).isTruthy := by
  cases value <;> rfl

namespace BuiltIn

/-- A block of one argument does the same with a tested argument if it asks for the truth only. It
also fails in the same way for other numbers of arguments. -/
theorem ofOne_testFirst {name : String} {script : Value → Script .block}
    (h : ∀ value other, value.isTruthy = other.isTruthy → script value = script other)
    (frame : Frame) (arguments : List Argument) (hasInverse : Bool) :
    ofOne name script frame (argumentValues frame (testFirst arguments)) hasInverse =
      ofOne name script frame (argumentValues frame arguments) hasInverse := by
  match arguments with
  | [] => rfl
  | [condition] => exact h _ _ (Value.isTruthy_truth (condition.value? frame))
  | first :: second :: rest => rfl

/-- A built-in block does the same whether its condition is tested or not. -/
theorem helper_testArguments {name : String} {helper : BlockHelper}
    (h : name ∈ conditionNames → blockHelpers.find? name = some helper) (frame : Frame)
    (arguments : List Argument) (hasInverse : Bool) :
    helper frame (argumentValues frame (testArguments name arguments)) hasInverse =
      helper frame (argumentValues frame arguments) hasInverse := by
  rw [testArguments]
  split
  · next hname =>
    rw [List.contains_iff_mem] at hname
    have hfind := h hname
    simp only [conditionNames, List.mem_cons, List.not_mem_nil, or_false] at hname
    rcases hname with rfl | rfl
    · cases hfind
      exact ofOne_testFirst (fun value other htruthy => by simp only [htruthy]) frame arguments
        hasInverse
    · cases hfind
      exact ofOne_testFirst (fun value other htruthy => by simp only [htruthy]) frame arguments
        hasInverse
  · rfl

end BuiltIn

/-- The blocks with conditions are the built-in ones, or they are not registered. -/
def Configuration.ConditionsBuiltIn (configuration : Configuration) : Prop :=
  ∀ name ∈ conditionNames, ∀ helper, configuration.findBlock? name = some helper →
    BuiltIn.blockHelpers.find? name = some helper

/-! ## Parts of a render that are the same while the registries are good -/

/-- If one of two parts ends and has looked at good registries only, the other one ends in the same
way with the same record. -/
def SameWhile {α : Type} (Good : Configuration → Prop) (first second : Recorded α) : Prop :=
  ∀ state result after happened, (∀ seen, .consulted seen ∈ happened → Good seen) →
    (first state = some (result, after, happened) ↔ second state = some (result, after, happened))

namespace SameWhile

variable {α β : Type} {Good : Configuration → Prop}

theorem refl (part : Recorded α) : SameWhile Good part part :=
  fun _ _ _ _ _ => Iff.rfl

/-- Two parts in sequence are the same while each is, in what it looks up. -/
theorem bind {first second : Recorded α} {next later : α → Recorded β}
    (h : SameWhile Good first second) (hnext : ∀ a, SameWhile Good (next a) (later a)) :
    SameWhile Good (first >>= next) (second >>= later) := by
  intro state result after happened hgood
  rw [Recorded.bind_eq_some, Recorded.bind_eq_some]
  refine or_congr (exists_congr fun error => and_congr_right fun _ => h _ _ _ _ hgood) ?_
  refine exists_congr fun a => exists_congr fun between => exists_congr fun former =>
    exists_congr fun latter => and_congr_right fun hsplit => ?_
  subst hsplit
  have hformer : ∀ seen, .consulted seen ∈ former → Good seen :=
    fun seen hmem => hgood seen (List.mem_append_left _ hmem)
  have hlatter : ∀ seen, .consulted seen ∈ latter → Good seen :=
    fun seen hmem => hgood seen (List.mem_append_right _ hmem)
  exact and_congr (h _ _ _ _ hformer) (hnext a _ _ _ _ hlatter)

/-- The registries that a part goes on with have been looked at, so they are good. -/
theorem configuration_bind {next later : Configuration → Recorded β}
    (hnext : ∀ configuration, Good configuration →
      SameWhile Good (next configuration) (later configuration)) :
    SameWhile Good (Recorded.configuration >>= next) (Recorded.configuration >>= later) := by
  intro state result after happened hgood
  rw [Recorded.bind_eq_some, Recorded.bind_eq_some]
  refine or_congr Iff.rfl ?_
  refine exists_congr fun configuration => exists_congr fun between => exists_congr fun former =>
    exists_congr fun latter => and_congr_right fun hsplit => and_congr_right fun hlook => ?_
  cases hlook
  subst hsplit
  have hconfiguration : Good state.configuration := hgood _ List.mem_cons_self
  exact hnext _ hconfiguration _ _ _ _ fun seen hmem => hgood seen (List.mem_cons_of_mem _ hmem)

theorem capture {inner other : Recorded Unit} (h : SameWhile Good inner other) :
    SameWhile Good (Recorded.capture inner) (Recorded.capture other) := by
  intro state result after happened hgood
  rw [Recorded.capture_eq_some, Recorded.capture_eq_some]
  exact exists_congr fun ended => exists_congr fun last =>
    and_congr_left fun _ => h _ _ _ _ hgood

end SameWhile

section

variable {Good : Configuration → Prop}

/-- A script does the same with bodies that are the same. -/
theorem sameWhile_script {convention : Convention} (script : Script convention) (frame : Frame)
    {recordPart recordOther : BodyPart → Frame → Recorded Unit}
    (hpart : ∀ part frame, SameWhile Good (recordPart part frame) (recordOther part frame)) :
    SameWhile Good (script.record frame recordPart) (script.record frame recordOther) := by
  induction script with
  | done => exact .refl _
  | fail error => exact .refl _
  | write text next ih => exact .bind (.refl _) fun _ => ih
  | registerInline name helper next _ ih => exact .bind (.refl _) fun _ => ih
  | registerBlock name helper next _ ih => exact .bind (.refl _) fun _ => ih
  | registerPartial name source next ih =>
    exact .bind (.refl _) fun _ => .bind (.refl _) fun _ => .bind (.refl _) fun _ => ih
  | render part scope next ih => exact .bind (hpart _ _) fun _ => ih
  | capture part scope next ih => exact .bind (.capture (hpart _ _)) fun captured => ih _ _

theorem sameWhile_recordItems {record other : Frame → Recorded Unit}
    (h : ∀ frame, SameWhile Good (record frame) (other frame)) (frame : Frame)
    (length index : Nat) (items : List Value) :
    SameWhile Good (recordItems record frame length index items)
      (recordItems other frame length index items) := by
  induction items generalizing index with
  | nil => exact .refl _
  | cons item items ih => exact .bind (h _) fun _ => ih (index + 1)

end

/-! ## Templates with tested conditions -/

section

variable (recordPartial : Template → Frame → Recorded Unit)

mutual

/-- Wrapping its conditions does not change a node while every configuration seen has the built-in
conditions. -/
theorem same_testConditions : ∀ (node : Node) (frame : Frame),
    SameWhile Configuration.ConditionsBuiltIn (recordNode recordPartial node.testConditions frame)
      (recordNode recordPartial node frame)
  | .text _, _ => .refl _
  | .output _, _ => .refl _
  | .inlineCall _ _, _ => .refl _
  | .partialCall _ _, _ => .refl _
  | .blockCall name arguments body inverse, frame => by
    rw [Node.testConditions, recordNode, recordNode]
    refine .configuration_bind fun configuration hbuiltIn => ?_
    cases hfind : configuration.findBlock? name with
    | none => exact .refl _
    | some helper =>
      -- A block helper sees its arguments and whether there is an inverse; both are as before.
      have hsome : (testInverse inverse).isSome = inverse.isSome := by cases inverse <;> rfl
      dsimp only
      rw [BuiltIn.helper_testArguments (fun hname => hbuiltIn name hname helper hfind), hsome]
      refine sameWhile_script _ frame fun part frame => ?_
      cases part with
      | body => exact same_testAll body frame
      | inverse => exact same_testInverse inverse frame
  | .pathBlock path body inverse, frame => by
    have hinverse := same_testInverse inverse frame
    have htruthy : ∀ value : Value, SameWhile Configuration.ConditionsBuiltIn
        (if value.isTruthy then recordNodes recordPartial (testAll body) (.child frame value none)
          else recordInverse recordPartial (testInverse inverse) frame)
        (if value.isTruthy then recordNodes recordPartial body (.child frame value none)
          else recordInverse recordPartial inverse frame) := by
      intro value
      cases value.isTruthy with
      | true => exact same_testAll body _
      | false => exact hinverse
    rw [Node.testConditions, recordNode, recordNode]
    split
    · exact sameWhile_recordItems (same_testAll body) frame _ _ _
    · exact htruthy _
    · exact hinverse

theorem same_testAll : ∀ (nodes : List Node) (frame : Frame),
    SameWhile Configuration.ConditionsBuiltIn (recordNodes recordPartial (testAll nodes) frame)
      (recordNodes recordPartial nodes frame)
  | [], _ => .refl _
  | node :: nodes, frame =>
    .bind (same_testConditions node frame) fun _ => same_testAll nodes frame

theorem same_testInverse : ∀ (inverse : Option (List Node)) (frame : Frame),
    SameWhile Configuration.ConditionsBuiltIn
      (recordInverse recordPartial (testInverse inverse) frame)
      (recordInverse recordPartial inverse frame)
  | none, _ => .refl _
  | some nodes, frame => same_testAll nodes frame

end

end

/-- Testing the conditions of a template changes nothing in its render. If the template or the one
with tested conditions ends, and whenever it looked into the registries the names `if` and `unless`
were unregistered there or had the built-in blocks, then both end in the same way, with the same
output and the same registries. -/
theorem render_testAll (nodes : Template) (depth : Nat) (frame : Frame) (state : RenderState)
    {result : Except Error Unit} {after : RenderState} {happened : List Happening}
    (hbuiltIn : ∀ seen, .consulted seen ∈ happened → seen.ConditionsBuiltIn)
    (hended : Template.record depth nodes frame state = some (result, after, happened) ∨
      Template.record depth (testAll nodes) frame state = some (result, after, happened)) :
    Template.render depth nodes frame state = some (result, after) ∧
      Template.render depth (testAll nodes) frame state = some (result, after) := by
  have hsame : Template.record depth (testAll nodes) frame state = some (result, after, happened) ↔
      Template.record depth nodes frame state = some (result, after, happened) := by
    cases depth with
    | zero => exact Iff.rfl
    | succ depth => exact same_testAll (Template.record depth) nodes frame _ _ _ _ hbuiltIn
  have hnodes : Template.record depth nodes frame state = some (result, after, happened) :=
    hended.elim id hsame.1
  constructor
  · rw [(records_render depth nodes frame).same, hnodes]
    rfl
  · rw [(records_render depth (testAll nodes) frame).same, hsame.2 hnodes]
    rfl

/-- Conditions of all kinds inside a loop, and a block without a condition, which fails. -/
theorem render_testAll_each :
    let condition : Template := [.blockCall "if" [.path (Path.ofWord "this")] [.text "y"]
      (some [.text "n", .blockCall "unless" [.path (Path.ofWord "a.b")] [.text "u"] none])]
    let nodes : Template := [.blockCall "each" [.path (Path.ofWord "xs")] condition none,
      .blockCall "unless" [] [] none]
    let items : List Value :=
      [.null, .number (.integer 0), .string "", .array [.null], .object []]
    let frame : Frame := .root (.object [("xs", .array items)])
    let state : RenderState := ⟨.unlimited "", .builtIn⟩
    let ended : Except Error Unit × RenderState :=
      (.error (.helper "unless" (.argumentCount 0)), ⟨.unlimited "nuynuynu", .builtIn⟩)
    (∃ happened, (∀ seen, .consulted seen ∈ happened → seen.ConditionsBuiltIn) ∧
        Template.record 1 nodes frame state = some (ended.1, ended.2, happened)) ∧
      Template.render 1 nodes frame state = some ended ∧
      Template.render 1 (testAll nodes) frame state = some ended := by
  intro condition nodes items frame state ended
  -- One look-up for `each`, five for `if`, three for the inner `unless`, one for the last one.
  let happened : List Happening := List.replicate 10 (.consulted .builtIn)
  have hbuiltIn : ∀ seen, .consulted seen ∈ happened → seen.ConditionsBuiltIn := by
    intro seen hmem
    cases List.eq_of_mem_replicate hmem
    exact fun name _ helper hfind => hfind
  have hended : Template.record 1 nodes frame state = some (ended.1, ended.2, happened) := rfl
  exact ⟨⟨happened, hbuiltIn, hended⟩, render_testAll nodes 1 frame state hbuiltIn (.inl hended)⟩

/-- A helper that registers another block `if`, which writes its argument: the names of conditions
have the built-in blocks when the render begins, but it depends on whether the condition that comes
after the helper is tested. -/
theorem render_testAll_ne_after_registration :
    let reveal : BlockHelper := fun _ values _ =>
      .write ("(" ++ "+".intercalate (values.map Json.text) ++ ")[")
        (.render .body .current (.write "|no inverse]" .done))
    let install : InlineHelper := fun _ _ => .registerBlock "if" reveal (.write "installed" .done)
    let configuration := Configuration.builtIn.register (.inline "i" install)
    let condition : Argument := .path (Path.ofWord "a")
    let nodes : Template := [.inlineCall "i" [], .blockCall "if" [condition] [.text "b"] none]
    let frame : Frame := .root (.object [("a", .string "v")])
    let state : RenderState := ⟨.unlimited "", configuration⟩
    configuration.ConditionsBuiltIn ∧
      pairBlocks [.node (.inlineCall "i" []), .opener "if" (.helper [condition]) false,
        .node (.text "b"), .closer "if"] = .ok nodes ∧
      (∃ after, Template.render 1 nodes frame state =
        some (.ok (), ⟨.unlimited "installed(\"v\")[b|no inverse]", after⟩)) ∧
      ∃ after, Template.render 1 (testAll nodes) frame state =
        some (.ok (), ⟨.unlimited "installed(true)[b|no inverse]", after⟩) := by
  intro reveal install configuration condition nodes frame state
  exact ⟨fun name _ helper hfind => hfind, rfl, ⟨_, rfl⟩, ⟨_, rfl⟩⟩

end BraceTemplate
