import BraceTemplate.Path
import BraceTemplate.Value

/-! # Frames

A frame is the value that a part of a template is rendered against, together with the frames
around it. A frame that belongs to a turn of a loop also holds the loop variables.
-/

namespace BraceTemplate

/-- The loop variables of one turn. -/
structure Iteration where
  index : Nat
  first : Bool
  last : Bool
  key : Option String
  deriving Repr, DecidableEq, Inhabited

namespace Iteration

/-- The variables of turn `index`, counted from zero, of a loop of `length` turns. -/
def ofIndex (index length : Nat) : Iteration :=
  { index, first := index == 0, last := index + 1 == length, key := none }

/-- The variables of a turn that visits the member with the given name. -/
def withKey (iteration : Iteration) (key : String) : Iteration :=
  { iteration with key := some key }

/-- The value of a loop variable, if there is one of that name. -/
def loopVariable? (iteration : Iteration) (name : String) : Option Value :=
  if name = "index" then some (.number (.integer iteration.index))
  else if name = "first" then some (.bool iteration.first)
  else if name = "last" then some (.bool iteration.last)
  else if name = "key" then iteration.key.map .string
  else none

end Iteration

/-- A value with the frames around it. -/
inductive Frame where
  | root (value : Value)
  | child (parent : Frame) (value : Value) (iteration : Option Iteration)
  deriving Repr, Inhabited

namespace Frame

/-- The value of a frame. -/
def value : Frame → Value
  | .root value => value
  | .child _ value _ => value

/-- The loop variables that a frame itself holds. -/
def iteration : Frame → Option Iteration
  | .root _ => none
  | .child _ _ iteration => iteration

/-- The frame around a frame. -/
def parent? : Frame → Option Frame
  | .root _ => none
  | .child parent _ _ => some parent

/-- The number of frames around a frame. -/
def depth : Frame → Nat
  | .root _ => 0
  | .child parent _ _ => parent.depth + 1

/-- The frame around all others. -/
def outermost : Frame → Frame
  | .root value => .root value
  | .child parent _ _ => parent.outermost

/-- The frame reached by climbing `hops` times, which ends at the outermost frame. -/
def ancestor : Frame → Nat → Frame
  | frame, 0 => frame
  | .root value, _ + 1 => .root value
  | .child parent _ _, hops + 1 => parent.ancestor hops

/-- The value of a loop variable in the nearest frame that belongs to a loop. -/
def loopVariable? : Frame → String → Option Value
  | .root _, _ => none
  | .child parent _ none, name => parent.loopVariable? name
  | .child _ _ (some iteration), name => iteration.loopVariable? name

/-- The value that a path starts from. -/
def anchorValue? (frame : Frame) (path : Path) : Option Value :=
  match path.anchor with
  | .root => some frame.outermost.value
  | .current => some (frame.ancestor path.hops).value
  | .data name => (frame.ancestor path.hops).loopVariable? name

/-- The value that a path leads to, if it is defined. -/
def lookup (frame : Frame) (path : Path) : Option Value :=
  (frame.anchorValue? path).bind (·.descend? path.segments)

/-! ## Lemmas -/

@[simp] theorem ancestor_zero (frame : Frame) : frame.ancestor 0 = frame := by
  cases frame <;> rfl

@[simp] theorem ancestor_root (value : Value) (hops : Nat) :
    (Frame.root value).ancestor hops = .root value := by
  cases hops <;> rfl

/-- Climbing twice is climbing the sum. -/
theorem ancestor_add (frame : Frame) (first second : Nat) :
    frame.ancestor (first + second) = (frame.ancestor first).ancestor second := by
  induction frame generalizing first with
  | root value => simp
  | child parent value iteration ih =>
    cases first with
    | zero => simp
    | succ first =>
      rw [Nat.succ_add]
      exact ih first

@[simp] theorem outermost_ancestor (frame : Frame) (hops : Nat) :
    (frame.ancestor hops).outermost = frame.outermost := by
  induction frame generalizing hops with
  | root value => simp
  | child parent value iteration ih =>
    cases hops with
    | zero => simp
    | succ hops => exact ih hops

end Frame

end BraceTemplate
