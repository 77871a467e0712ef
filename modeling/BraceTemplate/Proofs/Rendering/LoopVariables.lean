import BraceTemplate.Proofs.Rendering.Following

/-!
# Whose loop variables a node sees

The loop variables of a node are those of the innermost turn of a loop that it is rendered in. The
built-in blocks other than loops, the path blocks of values that are no arrays, the partials and the
bodies that helpers render without loop variables do not come between: they are transparent.

An enclosure that arises in a render is either transparent or a turn, and which it is can be told
from how it came about, without looking at any frame. What the turn is of says what the loop
variables are: in an array the index of the item, and no key, even inside a loop over an object; in
an object the name of the member as well; in the body of another helper what the helper gave.
-/

namespace BraceTemplate

open BuiltIn

/-! ## What the built-in blocks render -/

section

variable {part : BodyPart} {scope : Scope}

theorem renders_renderInverse (h : BuiltIn.renderInverse.Renders part scope) :
    part = .inverse ∧ scope = .current := by
  rcases h with ⟨rfl, rfl⟩ | h
  · exact ⟨rfl, rfl⟩
  · exact h.elim

/-- A script that renders a body once renders nothing else. -/
theorem renders_once {found : BodyPart} {entered : Scope}
    (h : (Script.render found entered .done).Renders part scope) : found = part ∧ entered = scope := by
  rcases h with h | h
  · exact h
  · exact h.elim

theorem renders_renderEach {scopes : List Scope} (h : (Script.renderEach scopes).Renders part scope) :
    part = .body ∧ scope ∈ scopes := by
  induction scopes with
  | nil => exact h.elim
  | cons first scopes ih =>
    rcases h with ⟨rfl, rfl⟩ | h
    · exact ⟨rfl, List.mem_cons_self⟩
    · exact ⟨(ih h).1, List.mem_cons_of_mem _ (ih h).2⟩

/-- A loop without turns renders the inverse body instead. -/
theorem renders_loop {scopes : List Scope}
    (h : (if scopes.isEmpty then BuiltIn.renderInverse
      else Script.renderEach scopes).Renders part scope) :
    (part = .inverse ∧ scope = .current) ∨ (part = .body ∧ scope ∈ scopes) := by
  split at h
  · exact .inl (renders_renderInverse h)
  · exact .inr (renders_renderEach h)

theorem renders_ofOne {name : String} {script : Value → Script .block} {frame : Frame}
    {values : List Value} {hasInverse : Bool}
    (h : (ofOne name script frame values hasInverse).Renders part scope) :
    ∃ value, values = [value] ∧ (script value).Renders part scope := by
  unfold ofOne at h
  split at h
  · exact ⟨_, rfl, h⟩
  · exact h.elim

variable {frame : Frame} {values : List Value} {hasInverse : Bool}

theorem renders_ifBlock (h : (ifBlock frame values hasInverse).Renders part scope) :
    scope = .current := by
  obtain ⟨condition, -, h⟩ := renders_ofOne h
  split at h
  · exact (renders_once h).2.symm
  · exact (renders_renderInverse h).2

theorem renders_unlessBlock (h : (unlessBlock frame values hasInverse).Renders part scope) :
    scope = .current := by
  obtain ⟨condition, -, h⟩ := renders_ofOne h
  split at h
  · exact (renders_renderInverse h).2
  · exact (renders_once h).2.symm

theorem renders_withBlock (h : (withBlock frame values hasInverse).Renders part scope) :
    scope = .current ∨ ∃ target, scope = .child target := by
  obtain ⟨target, -, h⟩ := renders_ofOne h
  split at h
  · exact .inr ⟨target, (renders_once h).2.symm⟩
  · exact .inl (renders_renderInverse h).2

/-- A loop renders its inverse body in its own frame, and its body for the items of an array or the
members of an object. -/
theorem renders_eachBlock (h : (eachBlock frame values hasInverse).Renders part scope) :
    (part = .inverse ∧ scope = .current) ∨
      (∃ items, values = [.array items] ∧ part = .body ∧ scope ∈ itemScopes items) ∨
      ∃ members, values = [.object members] ∧ part = .body ∧ scope ∈ memberScopes members := by
  obtain ⟨collection, rfl, hloop⟩ := renders_ofOne h
  cases collection with
  | array items =>
    exact (renders_loop hloop).imp_right fun h => .inl ⟨items, rfl, h⟩
  | object members =>
    exact (renders_loop hloop).imp_right fun h => .inr ⟨members, rfl, h⟩
  | _ => exact .inl (renders_renderInverse hloop)

end

/-! ## Loops and what is none -/

namespace Enclosure

/-- Not a turn of a loop: a body of `if`, `unless` or `with`, the inverse body of `each`, any body
that a helper renders without loop variables, and what is no body of a helper and no item. -/
def IsTransparent : Enclosure → Prop
  | .body helper _ part scope =>
    helper = ifBlock ∨ helper = unlessBlock ∨ helper = withBlock ∨
      (helper = eachBlock ∧ part = .inverse) ∨ scope = .current ∨ ∃ value, scope = .child value
  | .item _ _ _ => False
  | _ => True

/-- A turn of a loop, with its index, whether it is the first and the last one, and its key. -/
inductive IsTurn : Enclosure → Nat → Bool → Bool → Option String → Prop
  /-- A path block that stands for an array, for one of the items. -/
  | item {items : List Value} {index : Nat} {value : Value} (h : items[index]? = some value) :
      IsTurn (.item value index items.length)
        index (index == 0) (index + 1 == items.length) none
  /-- The body of `each`, for one of the items of an array. -/
  | eachItem {items : List Value} {index : Nat} {value : Value} (h : items[index]? = some value) :
      IsTurn (.body eachBlock [.array items] .body
          (.turn value ⟨index, index == 0, index + 1 == items.length, none⟩))
        index (index == 0) (index + 1 == items.length) none
  /-- The body of `each`, for one of the members of an object. -/
  | eachMember {members : Table Value} {index : Nat} {key : String} {value : Value}
      (h : members[index]? = some (key, value)) :
      IsTurn (.body eachBlock [.object members] .body
          (.turn value ⟨index, index == 0, index + 1 == members.length, some key⟩))
        index (index == 0) (index + 1 == members.length) (some key)
  /-- A body that another helper renders with loop variables of its own choice. -/
  | ofHelper {helper : BlockHelper} {values : List Value} {part : BodyPart} {value : Value}
      {index : Nat} {first last : Bool} {key : Option String} (h : helper ≠ eachBlock) :
      IsTurn (.body helper values part (.turn value ⟨index, first, last, key⟩)) index first last key

/-- A transparent enclosure starts no turn: of the built-ins only `each` renders its body in one. -/
theorem iteration?_eq_none {enclosure : Enclosure} (harises : enclosure.Arises)
    (h : enclosure.IsTransparent) : enclosure.iteration? = none := by
  have hscope : ∀ helper values part {scope : Scope},
      (scope = .current ∨ ∃ value, scope = .child value) →
        (Enclosure.body helper values part scope).iteration? = none := by
    rintro helper values part scope (rfl | ⟨value, rfl⟩) <;> rfl
  cases enclosure with
  | body helper values part scope =>
    obtain ⟨frame, hasInverse, hrenders⟩ := harises
    apply hscope
    rcases h with rfl | rfl | rfl | ⟨rfl, rfl⟩ | h
    · exact .inl (renders_ifBlock hrenders)
    · exact .inl (renders_unlessBlock hrenders)
    · exact renders_withBlock hrenders
    · -- Only its body is rendered by `each` with loop variables.
      rcases renders_eachBlock hrenders with ⟨-, rfl⟩ | ⟨_, -, ⟨⟩, -⟩ | ⟨_, -, ⟨⟩, -⟩
      exact .inl rfl
    · exact h
  | item value index length => exact h.elim
  | truthy value => rfl
  | inverse => rfl
  | partialCall name context => rfl

theorem IsTurn.iteration? {enclosure : Enclosure} {index : Nat} {first last : Bool}
    {key : Option String} (h : enclosure.IsTurn index first last key) :
    enclosure.iteration? = some ⟨index, first, last, key⟩ := by
  cases h with
  | item h => rfl
  | eachItem h => rfl
  | eachMember h => rfl
  | ofHelper h => rfl

/-- The bodies that `each` renders are its inverse body, which is transparent, and turns. -/
theorem isTransparent_or_isTurn_each {frame : Frame} {values : List Value} {hasInverse : Bool}
    {part : BodyPart} {scope : Scope} (h : (eachBlock frame values hasInverse).Renders part scope) :
    (Enclosure.body eachBlock values part scope).IsTransparent ∨
      ∃ index first last key,
        (Enclosure.body eachBlock values part scope).IsTurn index first last key := by
  rcases renders_eachBlock h with ⟨-, rfl⟩ | ⟨items, rfl, rfl, hscope⟩ | ⟨members, rfl, rfl, hscope⟩
  · exact .inl (.inr (.inr (.inr (.inr (.inl rfl)))))
  · obtain ⟨⟨item, index⟩, hitem, rfl⟩ := List.mem_map.1 hscope
    exact .inr ⟨_, _, _, _, .eachItem (List.mem_zipIdx_iff_getElem?.1 hitem)⟩
  · obtain ⟨⟨⟨key, value⟩, index⟩, hmember, rfl⟩ := List.mem_map.1 hscope
    exact .inr ⟨_, _, _, _, .eachMember (List.mem_zipIdx_iff_getElem?.1 hmember)⟩

/-- Whatever arises in a render is transparent or a turn. -/
theorem Arises.isTransparent_or_isTurn {enclosure : Enclosure} (h : enclosure.Arises) :
    enclosure.IsTransparent ∨ ∃ index first last key, enclosure.IsTurn index first last key := by
  cases enclosure with
  | body helper values part scope =>
    obtain ⟨frame, hasInverse, hrenders⟩ := h
    by_cases hhelper : helper = eachBlock
    · subst hhelper
      exact isTransparent_or_isTurn_each hrenders
    · cases scope with
      | current => exact .inl (.inr (.inr (.inr (.inr (.inl rfl)))))
      | child value => exact .inl (.inr (.inr (.inr (.inr (.inr ⟨value, rfl⟩)))))
      | turn value iteration => exact .inr ⟨_, _, _, _, .ofHelper hhelper⟩
  | item value index length =>
    obtain ⟨items, rfl, hitem⟩ := h
    exact .inr ⟨_, _, _, _, .item hitem⟩
  | truthy value => exact .inl trivial
  | inverse => exact .inl trivial
  | partialCall name context => exact .inl trivial

end Enclosure

/-- The innermost turn of a loop among enclosures, the innermost of them first: what is inside of it
is transparent. -/
inductive InnermostTurn : List Enclosure → Nat → Bool → Bool → Option String → Prop
  | here {turn : Enclosure} {outer : List Enclosure} {index : Nat} {first last : Bool}
      {key : Option String} (h : turn.IsTurn index first last key) :
      InnermostTurn (turn :: outer) index first last key
  | behind {enclosure : Enclosure} {outer : List Enclosure} {index : Nat} {first last : Bool}
      {key : Option String} (h : enclosure.IsTransparent)
      (houter : InnermostTurn outer index first last key) :
      InnermostTurn (enclosure :: outer) index first last key

section

variable {entered : List Enclosure}

theorem InnermostTurn.innermost? {index : Nat} {first last : Bool} {key : Option String}
    (h : InnermostTurn entered index first last key)
    (harises : ∀ enclosure ∈ entered, enclosure.Arises) :
    innermost? entered = some ⟨index, first, last, key⟩ := by
  rw [BraceTemplate.innermost?]
  induction h with
  | here h => rw [List.findSome?_cons, h.iteration?]
  | behind h houter ih =>
    obtain ⟨harises, houter⟩ := List.forall_mem_cons.1 harises
    rw [List.findSome?_cons, Enclosure.iteration?_eq_none harises h, ih houter]

theorem innermost?_eq_none (harises : ∀ enclosure ∈ entered, enclosure.Arises)
    (h : ∀ enclosure ∈ entered, enclosure.IsTransparent) : innermost? entered = none :=
  List.findSome?_eq_none_iff.2 fun enclosure hmem =>
    Enclosure.iteration?_eq_none (harises enclosure hmem) (h enclosure hmem)

/-- Going outwards from a node, there are transparent enclosures up to a turn or up to the end. -/
theorem all_transparent_or_innermostTurn (harises : ∀ enclosure ∈ entered, enclosure.Arises) :
    (∀ enclosure ∈ entered, enclosure.IsTransparent) ∨
      ∃ index first last key, InnermostTurn entered index first last key := by
  induction entered with
  | nil => exact .inl (List.forall_mem_nil _)
  | cons enclosure entered ih =>
    obtain ⟨harises, houter⟩ := List.forall_mem_cons.1 harises
    rcases harises.isTransparent_or_isTurn with htransparent | ⟨index, first, last, key, hturn⟩
    · rcases ih houter with hall | ⟨index, first, last, key, hinnermost⟩
      · exact .inl (List.forall_mem_cons.2 ⟨htransparent, hall⟩)
      · exact .inr ⟨index, first, last, key, .behind htransparent hinnermost⟩
    · exact .inr ⟨index, first, last, key, .here hturn⟩

end

/-! ## Looking up -/

/-- A frame in which the loop variables of a turn are seen, and no others. -/
structure Frame.SeesTurn (frame : Frame) (index : Nat) (first last : Bool) (key : Option String) :
    Prop where
  index : frame.lookup ⟨[], 0, .data "index"⟩ = some (.number (.integer index))
  first : frame.lookup ⟨[], 0, .data "first"⟩ = some (.bool first)
  last : frame.lookup ⟨[], 0, .data "last"⟩ = some (.bool last)
  key : frame.lookup ⟨[], 0, .data "key"⟩ = key.map .string
  others : ∀ name, name ∉ ["index", "first", "last", "key"] →
    frame.lookup ⟨[], 0, .data name⟩ = none

section

variable {data : Value} {entered : List Enclosure} {frame : Frame}

theorem Placed.lookup_root (h : Placed data entered frame) (segments : List String) (hops : Nat) :
    frame.lookup ⟨segments, hops, .root⟩ = data.descend? segments := by
  show (some frame.outermost.value).bind _ = _
  rw [h.frame_eq, outermost_frameOf]
  rfl

theorem Placed.lookup_data (h : Placed data entered frame) (name : String) :
    frame.lookup ⟨[], 0, .data name⟩ = (innermost? entered).bind (·.loopVariable? name) := by
  show ((frame.ancestor 0).loopVariable? name).bind some = _
  rw [Frame.ancestor_zero, Option.bind_fun_some, h.frame_eq, loopVariable?_frameOf]

/-- Outside of all loops there are no loop variables. -/
theorem Placed.lookup_transparent (h : Placed data entered frame)
    (htransparent : ∀ enclosure ∈ entered, enclosure.IsTransparent) (name : String) :
    frame.lookup ⟨[], 0, .data name⟩ = none := by
  rw [h.lookup_data, innermost?_eq_none h.arises htransparent, Option.bind_none]

/-- Whatever is inside of a turn of a loop without being one leaves the loop variables alone. -/
theorem Placed.seesTurn (h : Placed data entered frame) {index : Nat} {first last : Bool}
    {key : Option String} (hturn : InnermostTurn entered index first last key) :
    frame.SeesTurn index first last key := by
  have hlookup : ∀ name, frame.lookup ⟨[], 0, .data name⟩ =
      Iteration.loopVariable? ⟨index, first, last, key⟩ name := by
    intro name
    rw [h.lookup_data, hturn.innermost? h.arises, Option.bind_some]
  constructor
  · exact hlookup "index"
  · exact hlookup "first"
  · exact hlookup "last"
  · exact hlookup "key"
  · intro name hname
    simp only [List.mem_cons, List.not_mem_nil, or_false, not_or] at hname
    obtain ⟨hindex, hfirst, hlast, hkey⟩ := hname
    rw [hlookup, Iteration.loopVariable?, if_neg hindex, if_neg hfirst, if_neg hlast, if_neg hkey]

end

/-- Segments lead on from the value of a loop variable. -/
theorem Frame.lookup_data_segments (frame : Frame) (name : String) (segments : List String) :
    frame.lookup ⟨segments, 0, .data name⟩ =
      (frame.lookup ⟨[], 0, .data name⟩).bind (·.descend? segments) := by
  show ((frame.ancestor 0).loopVariable? name).bind _ =
    (((frame.ancestor 0).loopVariable? name).bind some).bind _
  rw [Option.bind_fun_some]

/-- Rendering visits every node in a frame whose outermost frame holds the data, which is what paths
from the root start from. A node is in no turn of a loop, and then all loop variables are undefined
in its frame, or there is an innermost turn that it is rendered in, whatever transparent enclosures
come between. Then the index, whether the turn is the first or the last one and the key are the loop
variables in its frame, where the key is undefined in a loop over an array. Segments lead on from
the value of a loop variable. -/
theorem render_places_nodes (depth : Nat) (template : Template) (data : Value)
    (state : RenderState) :
    (template.follow depth [] (.root data) state).2 = template.render depth (.root data) state ∧
      ∀ visit ∈ (template.follow depth [] (.root data) state).1,
        visit.frame.outermost = .root data ∧
        (∀ segments hops, visit.frame.lookup ⟨segments, hops, .root⟩ = data.descend? segments) ∧
        ((∀ enclosure ∈ visit.entered, enclosure.IsTransparent) ∨
          ∃ index first last key, InnermostTurn visit.entered index first last key) ∧
        ((∀ enclosure ∈ visit.entered, enclosure.IsTransparent) →
          ∀ name, visit.frame.lookup ⟨[], 0, .data name⟩ = none) ∧
        (∀ index first last key, InnermostTurn visit.entered index first last key →
          visit.frame.SeesTurn index first last key) ∧
        ∀ name segments, visit.frame.lookup ⟨segments, 0, .data name⟩ =
          (visit.frame.lookup ⟨[], 0, .data name⟩).bind (·.descend? segments) := by
  -- Nothing encloses the template itself; every part of it is placed from there.
  have hroot : Placed data [] (.root data) := ⟨rfl, List.forall_mem_nil _⟩
  obtain ⟨hsame, hvisits⟩ := follows_render data depth template [] (.root data) hroot
  refine ⟨(hsame state).symm, fun visit hvisit => ?_⟩
  have hplaced : Placed data visit.entered visit.frame := hvisits state visit hvisit
  refine ⟨?_, hplaced.lookup_root, all_transparent_or_innermostTurn hplaced.arises,
    hplaced.lookup_transparent, fun _ _ _ _ => hplaced.seesTurn, visit.frame.lookup_data_segments⟩
  rw [hplaced.frame_eq, outermost_frameOf]

/-- In a condition in a loop over an array, which is the member of an object in another loop, the loop
variables are those of the array, so no key is seen, and the array is reached from the root. -/
theorem render_places_nodes_each :
    let this : Path := ⟨[], 0, .current⟩
    let key : Node := .output ⟨[], 0, .data "key"⟩
    let condition : Node := .blockCall "if" [.truth (.path this)] [key] none
    let template : Template :=
      [.blockCall "each" [.path this] [.blockCall "each" [.path this] [condition] none] none]
    let items : Value := .array [.bool false, .bool true]
    let data : Value := .object [("a", items)]
    let state : RenderState := ⟨.unlimited "", .builtIn⟩
    let turn : Enclosure :=
      .body BuiltIn.eachBlock [items] .body (.turn (.bool true) ⟨1, false, true, none⟩)
    let outer : Enclosure :=
      .body BuiltIn.eachBlock [data] .body (.turn items ⟨0, true, true, some "a"⟩)
    let entered : List Enclosure := [.body BuiltIn.ifBlock [.bool true] .body .current, turn, outer]
    ∃ visit ∈ (template.follow 1 [] (.root data) state).1,
      visit.node = key ∧
        visit.entered = entered ∧
        visit.frame.lookup ⟨["a"], 0, .root⟩ = some items ∧
        visit.frame.SeesTurn 1 false true none := by
  intro this key condition template items data state turn outer entered
  let visit : Visit := ⟨entered, frameOf data entered, key⟩
  have hvisit : visit ∈ (template.follow 1 [] (.root data) state).1 :=
    List.mem_of_getElem? (i := 4) rfl
  obtain ⟨-, hroot, -, -, hturns, -⟩ := (render_places_nodes 1 template data state).2 visit hvisit
  have hturn : turn.IsTurn 1 false true none :=
    @Enclosure.IsTurn.eachItem [.bool false, .bool true] 1 (.bool true) rfl
  -- The `if` around the output is transparent, and the inner loop hides the key of the outer one.
  have hinnermost : InnermostTurn entered 1 false true none := .behind (.inl rfl) (.here hturn)
  exact ⟨visit, hvisit, rfl, rfl, hroot ["a"] 0, hturns 1 false true none hinnermost⟩

end BraceTemplate
