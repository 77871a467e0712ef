import BraceTemplate.Proofs.Rendering.Congruence

/-!
# Where the nodes of a render stand

A node may be rendered many times over, in bodies that helpers choose and in partials that are looked
up on the way. `Template.follow` renders a template in the same way and keeps a list of its visits to
nodes, each with the frame and with what the node is rendered inside of. By `follows_render` the frame
of a visit is the one that its enclosures put around the data of the render. So `@root` is that data
everywhere, and a loop variable is that of the innermost enclosure which is a turn of a loop.
-/

namespace BraceTemplate

/-! ## Enclosures -/

/-- Something that nodes are rendered inside of, with what they are rendered against. -/
inductive Enclosure where
  /-- A body of a block whose helper renders it against a scope. -/
  | body (helper : BlockHelper) (values : List Value) (part : BodyPart) (scope : Scope)
  /-- The body of a path block, for an item of an array. -/
  | item (value : Value) (index length : Nat)
  /-- The body of a path block, for another value that is truthy. -/
  | truthy (value : Value)
  /-- The inverse body of a path block. -/
  | inverse
  /-- A partial, for the value of its context if it has one. -/
  | partialCall (name : String) (context : Option Value)

namespace Enclosure

/-- The frame of the nodes inside, given the frame outside. -/
def enter (frame : Frame) : Enclosure → Frame
  | .body _ _ _ scope => scope.enter frame
  | .item value index length => .child frame value (some (.ofIndex index length))
  | .truthy value => .child frame value none
  | .inverse => frame
  | .partialCall _ none => frame
  | .partialCall _ (some value) => .child frame value none

/-- The loop variables of an enclosure that is a turn of a loop. -/
def iteration? : Enclosure → Option Iteration
  | .body _ _ _ (.turn _ iteration) => some iteration
  | .item _ index length => some (.ofIndex index length)
  | _ => none

end Enclosure

/-- The frame that enclosures, the innermost first, put around the data of a render. -/
def frameOf (data : Value) : List Enclosure → Frame
  | [] => .root data
  | enclosure :: entered => enclosure.enter (frameOf data entered)

/-- The loop variables of the innermost turn of a loop. -/
def innermost? (entered : List Enclosure) : Option Iteration :=
  entered.findSome? Enclosure.iteration?

namespace Enclosure

theorem outermost_enter (enclosure : Enclosure) (frame : Frame) :
    (enclosure.enter frame).outermost = frame.outermost := by
  cases enclosure with
  | body helper values part scope => cases scope <;> rfl
  | partialCall name context => cases context <;> rfl
  | _ => rfl

/-- Only a turn of a loop has loop variables of its own. -/
theorem loopVariable?_enter (enclosure : Enclosure) (frame : Frame) (name : String) :
    (enclosure.enter frame).loopVariable? name =
      match enclosure.iteration? with
      | some iteration => iteration.loopVariable? name
      | none => frame.loopVariable? name := by
  cases enclosure with
  | body helper values part scope =>
    cases scope <;> simp only [enter, iteration?, Scope.enter, Frame.loopVariable?]
  | partialCall name context =>
    cases context <;> simp only [enter, iteration?, Frame.loopVariable?]
  | _ => simp only [enter, iteration?, Frame.loopVariable?]

end Enclosure

theorem outermost_frameOf (data : Value) (entered : List Enclosure) :
    (frameOf data entered).outermost = .root data := by
  induction entered with
  | nil => rfl
  | cons enclosure entered ih => rw [frameOf, Enclosure.outermost_enter, ih]

theorem loopVariable?_frameOf (data : Value) (entered : List Enclosure) (name : String) :
    (frameOf data entered).loopVariable? name =
      (innermost? entered).bind (·.loopVariable? name) := by
  induction entered with
  | nil => simp only [frameOf, Frame.loopVariable?, innermost?, List.findSome?_nil, Option.bind_none]
  | cons enclosure entered ih =>
    rw [frameOf, Enclosure.loopVariable?_enter, innermost?, List.findSome?_cons]
    cases enclosure.iteration? with
    | some iteration => rfl
    | none => exact ih

/-! ## Parts of a render with their visits -/

/-- A node that is rendered, with its frame and its enclosures, the innermost first. -/
structure Visit where
  entered : List Enclosure
  frame : Frame
  node : Node

/-- A part of a render that keeps a list of its visits, also if it has no end. -/
def Followed (α : Type) : Type :=
  RenderState → List Visit × Option (Except Error α × RenderState)

namespace Followed

variable {α β : Type}

instance : Monad Followed where
  pure a := fun state => ([], some (.ok a, state))
  bind part next := fun state =>
    match part state with
    | (visits, none) => (visits, none)
    | (visits, some (.ok a, after)) => (visits ++ (next a after).1, (next a after).2)
    | (visits, some (.error error, after)) => (visits, some (.error error, after))

theorem bind_apply (part : Followed α) (next : α → Followed β) (state : RenderState) :
    (part >>= next) state =
      match part state with
      | (visits, none) => (visits, none)
      | (visits, some (.ok a, after)) => (visits ++ (next a after).1, (next a after).2)
      | (visits, some (.error error, after)) => (visits, some (.error error, after)) := rfl

/-- A part of a render that visits no nodes. -/
def quiet (part : Render α) : Followed α :=
  fun state => ([], part state)

/-- A visit to a node. -/
def visit (visited : Visit) : Followed Unit :=
  fun state => ([visited], some (.ok (), state))

/-- Renders into an empty sink, and gives what was written and the error, if there was one. -/
def capture (inner : Followed Unit) : Followed (String × Option Error) :=
  fun state =>
    ((inner { state with sink := .unlimited "" }).1,
      match (inner { state with sink := .unlimited "" }).2 with
      | none => none
      | some (result, after) =>
        some (.ok (after.sink.written, Render.errorOf result), { after with sink := state.sink }))

end Followed

/-! ## Following a render -/

/-- Does what a script says, given how to follow a body that is rendered against a scope. -/
def Script.follow (followPart : BodyPart → Scope → Followed Unit) :
    {convention : Convention} → Script convention → Followed Unit
  | _, .done => pure ()
  | _, .fail error => Followed.quiet (Render.fail error)
  | _, .write text next => do
    Followed.quiet (Render.write text)
    next.follow followPart
  | _, .registerInline name helper next => do
    Followed.quiet (Render.register (.inline name helper))
    next.follow followPart
  | _, .registerBlock name helper next => do
    Followed.quiet (Render.register (.block name helper))
    next.follow followPart
  | _, .registerPartial name source next => do
    Followed.quiet (Render.registerPartial name source)
    next.follow followPart
  | _, .render part scope next => do
    followPart part scope
    next.follow followPart
  | _, .capture part scope next => do
    let (text, error) ← Followed.capture (followPart part scope)
    (next text error).follow followPart

/-- Follows what is rendered for each of the items of an array in turn. -/
def followItems (follow : Nat → Value → Followed Unit) : Nat → List Value → Followed Unit
  | _, [] => pure ()
  | index, item :: items => do
    follow index item
    followItems follow (index + 1) items

mutual

/-- Follows a node, given how to follow a partial. -/
def followNode (followPartial : Template → List Enclosure → Frame → Followed Unit) :
    Node → List Enclosure → Frame → Followed Unit
  | .text content, _, _ => Followed.quiet (Render.write content)
  | .output path, _, frame =>
    match frame.lookup path with
    | some value => Followed.quiet (Render.write value.text)
    | none => pure ()
  | .inlineCall name arguments, _, frame => do
    let configuration ← Followed.quiet Render.configuration
    match configuration.findInline? name with
    | some helper =>
      (helper frame (argumentValues frame arguments)).follow fun _ _ => pure ()
    | none => Followed.quiet (Render.fail (configuration.noInline name))
  | .blockCall name arguments body inverse, entered, frame => do
    let configuration ← Followed.quiet Render.configuration
    match configuration.findBlock? name with
    | some helper =>
      let values := argumentValues frame arguments
      (helper frame values inverse.isSome).follow fun part scope =>
        match part with
        | .body =>
          followNodes followPartial body (.body helper values .body scope :: entered)
            (scope.enter frame)
        | .inverse =>
          followInverse followPartial inverse (.body helper values .inverse scope :: entered)
            (scope.enter frame)
    | none => Followed.quiet (Render.fail (configuration.noBlock name))
  | .pathBlock path body inverse, entered, frame =>
    match frame.lookup path with
    | some (.array (item :: items)) =>
      followItems (fun index value =>
          followNodes followPartial body (.item value index (items.length + 1) :: entered)
            (.child frame value (some (.ofIndex index (items.length + 1))))) 0
        (item :: items)
    | some value =>
      if value.isTruthy then
        followNodes followPartial body (.truthy value :: entered) (.child frame value none)
      else followInverse followPartial inverse (.inverse :: entered) frame
    | none => followInverse followPartial inverse (.inverse :: entered) frame
  | .partialCall name context, entered, frame => do
    let configuration ← Followed.quiet Render.configuration
    match configuration.findPartial? name with
    | some template =>
      let value := context.map fun path => (frame.lookup path).getD .null
      followPartial template (.partialCall name value :: entered) (partialFrame frame context)
    | none => Followed.quiet (Render.fail (.missingPartial name))

/-- Follows nodes in order, each of them with a visit to it. -/
def followNodes (followPartial : Template → List Enclosure → Frame → Followed Unit) :
    List Node → List Enclosure → Frame → Followed Unit
  | [], _, _ => pure ()
  | node :: nodes, entered, frame => do
    Followed.visit ⟨entered, frame, node⟩
    followNode followPartial node entered frame
    followNodes followPartial nodes entered frame

/-- Follows an inverse body. -/
def followInverse (followPartial : Template → List Enclosure → Frame → Followed Unit) :
    Option (List Node) → List Enclosure → Frame → Followed Unit
  | none, _, _ => pure ()
  | some nodes, entered, frame => followNodes followPartial nodes entered frame

end

/-- Follows a template, and partials to the given depth. -/
def Template.follow : (depth : Nat) → Template → List Enclosure → Frame → Followed Unit
  | 0, _, _, _ => Followed.quiet Render.tooDeep
  | depth + 1, template, entered, frame =>
    followNodes (Template.follow depth) template entered frame

/-! ## Following leaves a render as it is -/

/-- A part with its visits does what a part of a render does, and the visits are good. -/
structure Follows {α : Type} (Good : Visit → Prop) (followed : Followed α) (part : Render α) :
    Prop where
  same : ∀ state, part state = (followed state).2
  visits : ∀ state, ∀ visit ∈ (followed state).1, Good visit

namespace Follows

variable {α β : Type} {Good : Visit → Prop}

theorem pure (a : α) : Follows Good (pure a) (pure a) :=
  ⟨fun _ => rfl, fun _ => List.forall_mem_nil _⟩

theorem quiet (part : Render α) : Follows Good (Followed.quiet part) part :=
  ⟨fun _ => rfl, fun _ => List.forall_mem_nil _⟩

/-- What is visited in two parts in sequence is what the first visits, then what the second does. -/
theorem bind {followed : Followed α} {part : Render α} {followNext : α → Followed β}
    {next : α → Render β} (h : Follows Good followed part)
    (hnext : ∀ a, Follows Good (followNext a) (next a)) :
    Follows Good (followed >>= followNext) (part >>= next) := by
  constructor
  · intro state
    rw [Render.bind_apply, h.same, Followed.bind_apply]
    rcases followed state with ⟨visits, - | ⟨error | a, after⟩⟩
    · rfl
    · rfl
    · exact (hnext a).same after
  · intro state
    have hvisits := h.visits state
    rw [Followed.bind_apply]
    generalize followed state = ended at hvisits ⊢
    rcases ended with ⟨visits, - | ⟨error | a, after⟩⟩
    · exact hvisits
    · exact hvisits
    · exact List.forall_mem_append.2 ⟨hvisits, (hnext a).visits after⟩

/-- A visit to a node that is good, before the node is rendered. -/
theorem visit {visited : Visit} (hgood : Good visited) {followed : Followed α} {part : Render α}
    (h : Follows Good followed part) :
    Follows Good (Followed.visit visited >>= fun _ => followed) part := by
  constructor
  · exact h.same
  · intro state
    exact List.forall_mem_cons.2 ⟨hgood, h.visits state⟩

theorem capture {followed : Followed Unit} {inner : Render Unit} (h : Follows Good followed inner) :
    Follows Good (Followed.capture followed) (Render.capture inner) := by
  have hinner : inner = fun state => (followed state).2 := funext h.same
  subst hinner
  constructor
  · exact fun _ => rfl
  · exact fun _ => h.visits _

end Follows

/-- A script renders a part of its block against a scope, in some way in which it goes on. -/
def Script.Renders (part : BodyPart) (scope : Scope) : {convention : Convention} →
    Script convention → Prop
  | _, .done => False
  | _, .fail _ => False
  | _, .write _ next => next.Renders part scope
  | _, .registerInline _ _ next => next.Renders part scope
  | _, .registerBlock _ _ next => next.Renders part scope
  | _, .registerPartial _ _ next => next.Renders part scope
  | _, .render found entered next => (found = part ∧ entered = scope) ∨ next.Renders part scope
  | _, .capture found entered next =>
    (found = part ∧ entered = scope) ∨ ∃ text error, (next text error).Renders part scope

/-- The scripts of helpers are followed if the parts that they render are. -/
theorem follows_script {Good : Visit → Prop} {convention : Convention}
    {script : Script convention} (frame : Frame) {followPart : BodyPart → Scope → Followed Unit}
    {renderPart : BodyPart → Frame → Render Unit}
    (hpart : ∀ part scope, script.Renders part scope →
      Follows Good (followPart part scope) (renderPart part (scope.enter frame))) :
    Follows Good (script.follow followPart) (script.run frame renderPart) := by
  induction script with
  | done => exact .pure ()
  | fail error => exact .quiet _
  | write text next ih => exact .bind (.quiet _) fun _ => ih hpart
  | registerInline name helper next _ ih => exact .bind (.quiet _) fun _ => ih hpart
  | registerBlock name helper next _ ih => exact .bind (.quiet _) fun _ => ih hpart
  | registerPartial name source next ih =>
    rw [Script.run_registerPartial]
    exact .bind (.quiet _) fun _ => ih hpart
  -- The part is one that the script renders, and so is every later one.
  | render part scope next ih =>
    refine .bind (hpart part scope (.inl ⟨rfl, rfl⟩)) fun _ => ih fun found entered hrenders => ?_
    exact hpart found entered (.inr hrenders)
  | capture part scope next ih =>
    refine .bind (.capture (hpart part scope (.inl ⟨rfl, rfl⟩))) fun captured => ?_
    refine ih _ _ fun found entered hrenders => ?_
    exact hpart found entered (.inr ⟨_, _, hrenders⟩)

/-- The turns for the items of an array are followed if each of its items is followed at its index. -/
theorem follows_items {Good : Visit → Prop} {follow : Nat → Value → Followed Unit}
    {render : Frame → Render Unit} {frame : Frame} {length : Nat} {all : List Value}
    (h : ∀ index value, all[index]? = some value → Follows Good (follow index value)
      (render (.child frame value (some (.ofIndex index length))))) {index : Nat}
    {items : List Value} (hitems : all.drop index = items) :
    Follows Good (followItems follow index items) (renderItems render frame length index items) := by
  induction items generalizing index with
  | nil => exact .pure ()
  | cons item items ih =>
    -- What is left of the array begins with the item at the index of the turn.
    have hitem : all[index]? = some item := by
      rw [← Nat.add_zero index, ← List.getElem?_drop, hitems]
      rfl
    have hrest : all.drop (index + 1) = items := by
      rw [← List.drop_drop, hitems]
      rfl
    exact .bind (h index item hitem) fun _ => ih hrest

/-! ## Where visits take place -/

/-- A body of a block is rendered against a scope that its helper gives to it, and a path block is
rendered for an item of an array at its index. -/
def Enclosure.Arises : Enclosure → Prop
  | .body helper values part scope =>
    ∃ frame hasInverse, (helper frame values hasInverse).Renders part scope
  | .item value index length => ∃ items : List Value, items.length = length ∧ items[index]? = some value
  | _ => True

/-- The frame is the one that the enclosures put around the data. -/
structure Placed (data : Value) (entered : List Enclosure) (frame : Frame) : Prop where
  frame_eq : frame = frameOf data entered
  arises : ∀ enclosure ∈ entered, enclosure.Arises

theorem Placed.enter {data : Value} {entered : List Enclosure} {frame : Frame}
    (h : Placed data entered frame) (enclosure : Enclosure) (harises : enclosure.Arises) :
    Placed data (enclosure :: entered) (enclosure.enter frame) :=
  ⟨congrArg (enclosure.enter ·) h.frame_eq, List.forall_mem_cons.2 ⟨harises, h.arises⟩⟩

/-- The node of a visit is rendered where it stands. -/
def Visit.IsPlaced (data : Value) (visit : Visit) : Prop :=
  Placed data visit.entered visit.frame

section

variable {data : Value} {followPartial : Template → List Enclosure → Frame → Followed Unit}
  {renderPartial : Template → Frame → Render Unit}

mutual

/-- A node is followed as it is rendered, and the nodes inside of it are visited where they stand, if
partials are. Whatever gives a frame to the nodes inside is one enclosure more. -/
theorem follows_renderNode (h : ∀ template entered frame, Placed data entered frame →
      Follows (Visit.IsPlaced data) (followPartial template entered frame)
        (renderPartial template frame)) :
    ∀ (node : Node) (entered : List Enclosure) (frame : Frame), Placed data entered frame →
      Follows (Visit.IsPlaced data) (followNode followPartial node entered frame)
        (renderNode renderPartial node frame)
  | .text content, _, _, _ => .quiet _
  | .output path, _, frame, _ => by
    rw [followNode, renderNode]
    cases frame.lookup path with
    | some value => exact .quiet _
    | none => exact .pure ()
  | .inlineCall name arguments, _, frame, _ => by
    rw [followNode, renderNode]
    refine .bind (.quiet _) fun configuration => ?_
    cases configuration.findInline? name with
    | some helper => exact follows_script frame fun _ _ _ => .pure ()
    | none => exact .quiet _
  | .blockCall name arguments body inverse, entered, frame, hplaced => by
    rw [followNode, renderNode]
    refine .bind (.quiet _) fun configuration => ?_
    cases configuration.findBlock? name with
    | some helper =>
      refine follows_script frame fun part scope hrenders => ?_
      cases part with
      | body =>
        exact follows_renderNodes h body _ _ (hplaced.enter (.body _ _ _ _) ⟨_, _, hrenders⟩)
      | inverse =>
        exact follows_renderInverse h inverse _ _ (hplaced.enter (.body _ _ _ _) ⟨_, _, hrenders⟩)
    | none => exact .quiet _
  | .pathBlock path body inverse, entered, frame, hplaced => by
    have hinverse := follows_renderInverse h inverse _ _ (hplaced.enter .inverse trivial)
    -- Apart from an array with items, a value that is found is tested, whatever its kind.
    have htruthy : ∀ value : Value, Follows (Visit.IsPlaced data)
        (if value.isTruthy then
          followNodes followPartial body (.truthy value :: entered) (.child frame value none)
          else followInverse followPartial inverse (.inverse :: entered) frame)
        (if value.isTruthy then renderNodes renderPartial body (.child frame value none)
          else renderInverse renderPartial inverse frame) := by
      intro value
      cases value.isTruthy with
      | true =>
        exact follows_renderNodes h body _ _ (hplaced.enter (.truthy value) trivial)
      | false => exact hinverse
    rw [followNode, renderNode]
    match frame.lookup path with
    | none => exact hinverse
    | some (.array (item :: items)) =>
      refine follows_items (fun index value hitem => ?_) (List.drop_zero (l := item :: items))
      exact follows_renderNodes h body _ _
        (hplaced.enter (.item value index (items.length + 1)) ⟨item :: items, rfl, hitem⟩)
    | some (.array []) => exact htruthy _
    | some .null => exact htruthy _
    | some (.bool _) => exact htruthy _
    | some (.number _) => exact htruthy _
    | some (.string _) => exact htruthy _
    | some (.object _) => exact htruthy _
  | .partialCall name context, entered, frame, hplaced => by
    rw [followNode, renderNode]
    refine .bind (.quiet _) fun configuration => ?_
    cases configuration.findPartial? name with
    | some template =>
      refine h template _ _ ?_
      have henter := hplaced.enter
        (.partialCall name (context.map fun path => (frame.lookup path).getD .null)) trivial
      cases context with
      | none => exact henter
      | some path => exact henter
    | none => exact .quiet _

/-- Nodes in a row are followed one by one, each after a visit to it. -/
theorem follows_renderNodes (h : ∀ template entered frame, Placed data entered frame →
      Follows (Visit.IsPlaced data) (followPartial template entered frame)
        (renderPartial template frame)) :
    ∀ (nodes : List Node) (entered : List Enclosure) (frame : Frame), Placed data entered frame →
      Follows (Visit.IsPlaced data) (followNodes followPartial nodes entered frame)
        (renderNodes renderPartial nodes frame)
  | [], _, _, _ => .pure ()
  | node :: nodes, entered, frame, hplaced => by
    rw [followNodes, renderNodes]
    refine .visit hplaced ?_
    exact .bind (follows_renderNode h node entered frame hplaced) fun _ =>
      follows_renderNodes h nodes entered frame hplaced

/-- An inverse body is followed as its nodes are. -/
theorem follows_renderInverse (h : ∀ template entered frame, Placed data entered frame →
      Follows (Visit.IsPlaced data) (followPartial template entered frame)
        (renderPartial template frame)) :
    ∀ (inverse : Option (List Node)) (entered : List Enclosure) (frame : Frame),
      Placed data entered frame →
      Follows (Visit.IsPlaced data) (followInverse followPartial inverse entered frame)
        (renderInverse renderPartial inverse frame)
  | none, _, _, _ => .pure ()
  | some nodes, entered, frame, hplaced => follows_renderNodes h nodes entered frame hplaced

end

end

/-- A template that is followed is rendered as it is, and all of its nodes are rendered where they
stand. -/
theorem follows_render (data : Value) (depth : Nat) :
    ∀ (template : Template) (entered : List Enclosure) (frame : Frame), Placed data entered frame →
      Follows (Visit.IsPlaced data) (template.follow depth entered frame)
        (template.render depth frame) := by
  induction depth with
  | zero => exact fun _ _ _ _ => .quiet _
  | succ depth ih => exact follows_renderNodes ih

end BraceTemplate
