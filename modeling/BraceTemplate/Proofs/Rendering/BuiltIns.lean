import BraceTemplate.Helper.BuiltIn

/-!
# What the built-in blocks do

All scripts of the built-in blocks are of one kind: they fail for the number of their arguments,
render the inverse body in the frame of the block, or render the body against some scopes. By
`blockScript_of_find?` the name of a block says how many frames those scopes put around the body.
-/

namespace BraceTemplate

/-- The number of frames that a scope puts around a body. -/
def Scope.depth : Scope → Nat
  | .current => 0
  | .child _ => 1
  | .turn _ _ => 1

namespace BuiltIn

/-- A block helper that is built in. -/
def IsBlock (helper : BlockHelper) : Prop :=
  ∃ name, blockHelpers.find? name = some helper

/-- The built-in blocks whose body is rendered against a value of its own. -/
def scopedNames : List String := ["with", "each"]

/-- The number of frames around a body of the built-in block with the given name, seen from the
frame of the block. -/
def bodyDepth (name : String) : BodyPart → Nat
  | .body => if name ∈ scopedNames then 1 else 0
  | .inverse => 0

/-- The scripts of a built-in block that is called with the given values. -/
inductive BlockScript (depth : Nat) : List Value → Script .block → Prop
  | count {values : List Value} (h : values.length ≠ 1) (name : String) :
    BlockScript depth values (.fail (.helper name (.argumentCount values.length)))
  | inverse (value : Value) : BlockScript depth [value] renderInverse
  | body (value : Value) {scopes : List Scope} (h : ∀ scope ∈ scopes, scope.depth = depth) :
    BlockScript depth [value] (.renderEach scopes)

theorem blockScript_ofOne {depth : Nat} {name : String} {script : Value → Script .block}
    (h : ∀ value, BlockScript depth [value] (script value)) (frame : Frame) (values : List Value)
    (hasInverse : Bool) : BlockScript depth values (ofOne name script frame values hasInverse) := by
  unfold ofOne
  split
  · exact h _
  · next hvalues =>
    refine .count (fun hlength => ?_) name
    obtain ⟨value, rfl⟩ := List.length_eq_one_iff.1 hlength
    exact hvalues value rfl

/-- A body that is rendered once. -/
theorem blockScript_body (value : Value) (scope : Scope) :
    BlockScript scope.depth [value] (.render .body scope .done) :=
  .body value (List.forall_mem_singleton.2 rfl)

theorem depth_of_mem_itemScopes {items : List Value} {scope : Scope}
    (h : scope ∈ itemScopes items) : scope.depth = 1 := by
  obtain ⟨_, -, rfl⟩ := List.mem_map.1 h
  rfl

theorem depth_of_mem_memberScopes {members : Table Value} {scope : Scope}
    (h : scope ∈ memberScopes members) : scope.depth = 1 := by
  obtain ⟨_, -, rfl⟩ := List.mem_map.1 h
  rfl

theorem blockScript_eachBlock (frame : Frame) (values : List Value) (hasInverse : Bool) :
    BlockScript 1 values (eachBlock frame values hasInverse) := by
  have hloop : ∀ (value : Value) (scopes : List Scope), (∀ scope ∈ scopes, scope.depth = 1) →
      BlockScript 1 [value] (if scopes.isEmpty then renderInverse else .renderEach scopes) := by
    intro value scopes hscopes
    split
    · exact .inverse value
    · exact .body value hscopes
  refine blockScript_ofOne (fun collection => hloop collection _ fun scope hmem => ?_) _ _ _
  cases collection with
  | array items => exact depth_of_mem_itemScopes hmem
  | object members => exact depth_of_mem_memberScopes hmem
  | _ => cases hmem

/-- The script of a built-in block does not depend on its frame, and its name says how many frames
it puts around its body. -/
theorem blockScript_of_find? {name : String} {helper : BlockHelper}
    (h : blockHelpers.find? name = some helper) (frame other : Frame) (values : List Value)
    (hasInverse : Bool) :
    helper other values hasInverse = helper frame values hasInverse ∧
      BlockScript (bodyDepth name .body) values (helper frame values hasInverse) := by
  have hmem := Table.mem_of_mem_ofPairs (Table.mem_of_find? h)
  simp only [List.mem_cons, List.not_mem_nil, or_false, Prod.mk.injEq] at hmem
  -- In the order of the registry: `if`, `unless`, `with`, `each`.
  rcases hmem with ⟨rfl, rfl⟩ | ⟨rfl, rfl⟩ | ⟨rfl, rfl⟩ | ⟨rfl, rfl⟩
  · refine ⟨rfl, blockScript_ofOne (fun condition => ?_) _ _ _⟩
    split
    · exact blockScript_body condition .current
    · exact .inverse condition
  · refine ⟨rfl, blockScript_ofOne (fun condition => ?_) _ _ _⟩
    split
    · exact .inverse condition
    · exact blockScript_body condition .current
  · refine ⟨rfl, blockScript_ofOne (fun target => ?_) _ _ _⟩
    split
    · exact blockScript_body target (.child target)
    · exact .inverse target
  · exact ⟨rfl, blockScript_eachBlock _ _ _⟩

theorem eq_logInline {name : String} {helper : InlineHelper}
    (h : inlineHelpers.find? name = some helper) : helper = logInline := by
  have hmem := Table.mem_of_mem_ofPairs (Table.mem_of_find? h)
  exact (Prod.mk.inj (List.mem_singleton.1 hmem)).2

end BuiltIn

end BraceTemplate
