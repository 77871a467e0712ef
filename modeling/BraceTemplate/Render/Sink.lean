/-! # Sinks

Where a render writes to. A sink may have room for a limited number of characters; it keeps
what fits and refuses the rest.
-/

namespace BraceTemplate

/-- What has been written, and the room for more if it is limited. -/
structure Sink where
  written : String
  room : Option Nat
  deriving Repr, DecidableEq, Inhabited

namespace Sink

/-- A sink without a limit that holds a text already. -/
def unlimited (written : String) : Sink := ⟨written, none⟩

/-- An empty sink with room for so many characters. -/
def limited (room : Nat) : Sink := ⟨"", some room⟩

/-- Writes a text, and says whether all of it was kept. -/
def write : Sink → String → Sink × Bool
  | ⟨written, none⟩, text => (⟨written ++ text, none⟩, true)
  | ⟨written, some room⟩, text =>
    if text.length ≤ room then
      (⟨written ++ text, some (room - text.length)⟩, true)
    else
      (⟨written ++ String.ofList (text.toList.take room), some 0⟩, false)

/-! ## Lemmas -/

/-- Nothing is always kept. -/
theorem write_empty (sink : Sink) : sink.write "" = (sink, true) := by
  obtain ⟨written, room⟩ := sink
  cases room with
  | none => simp [write]
  | some room => simp [write]

/-- A text is written as its two halves are, of which the second one is not written if there was no
room for all of the first one. -/
theorem write_append (sink : Sink) (first second : String) :
    sink.write (first ++ second) =
      if (sink.write first).2 then (sink.write first).1.write second else sink.write first := by
  obtain ⟨written, room⟩ := sink
  cases room with
  | none => simp [write, String.append_assoc]
  | some room =>
    have hlen : (first ++ second).length = first.length + second.length :=
      String.length_append first second
    -- The room runs out in neither text, in the second one, or in the first one already.
    by_cases hfirst : first.length ≤ room
    · by_cases hsecond : second.length ≤ room - first.length
      · have hboth : (first ++ second).length ≤ room := by omega
        simp only [write, hfirst, hsecond, hboth, if_true]
        rw [hlen, Nat.sub_add_eq, String.append_assoc]
      · have hboth : ¬ (first ++ second).length ≤ room := by omega
        have htake : first.toList.take room = first.toList :=
          List.take_of_length_le (by rwa [String.length_toList])
        simp only [write, hfirst, hsecond, hboth, if_true, if_false]
        rw [String.toList_append, List.take_append, htake, String.length_toList,
          String.ofList_append, String.ofList_toList, String.append_assoc]
    · have hboth : ¬ (first ++ second).length ≤ room := by omega
      have htake : (first ++ second).toList.take room = first.toList.take room := by
        rw [String.toList_append, List.take_append_of_le_length]
        rw [String.length_toList]
        omega
      simp only [write, hfirst, hboth, if_false, htake, Bool.false_eq_true]

end Sink

end BraceTemplate
