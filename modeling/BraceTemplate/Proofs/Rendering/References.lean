import BraceTemplate.Configuration
import BraceTemplate.Proofs.Nodes
import Mathlib.Data.List.Perm.Subperm
import Mathlib.Logic.Relation

/-!
# References to partials

A template refers to partials, and these refer to others. `fits_of_acyclic` bounds how many of them
are inside each other: if no partial leads back to itself, the names of the partials around a
template are all different, so there are no more of them than partials are registered.
-/

namespace BraceTemplate.Configuration

/-- A node that rendering a template may come to: one of its own, or one of a partial that it refers
to, be it through other partials. -/
inductive Uses (configuration : Configuration) (template : Template) : Node → Prop
  | own {node : Node} (h : node ∈ allNodes template) : Uses configuration template node
  | through {name : String} {context : Option Path} {used : Template} {node : Node}
    (h : Uses configuration template (.partialCall name context))
    (hfind : configuration.findPartial? name = some used) (hnode : node ∈ allNodes used) :
    Uses configuration template node

/-- The partial of the first name refers to that of the second one. -/
def Refers (configuration : Configuration) (name other : String) : Prop :=
  ∃ used context, configuration.findPartial? name = some used ∧
    .partialCall other context ∈ allNodes used

/-- Fewer than the given number of partials are inside each other in a template. -/
def Fits (configuration : Configuration) : Nat → Template → Prop
  | 0, _ => False
  | depth + 1, template => ∀ name context used, .partialCall name context ∈ allNodes template →
    configuration.findPartial? name = some used → configuration.Fits depth used

variable {configuration : Configuration} {template used : Template}

theorem Fits.succ {depth : Nat} (h : configuration.Fits depth template) :
    configuration.Fits (depth + 1) template := by
  induction depth generalizing template with
  | zero => exact h.elim
  | succ depth ih => exact fun name context used hmem hfind => ih (h name context used hmem hfind)

/-- What a partial uses is used by the templates that refer to it. -/
theorem Uses.of_partial {name : String} {context : Option Path}
    (h : configuration.Uses template (.partialCall name context))
    (hfind : configuration.findPartial? name = some used) {node : Node}
    (hnode : configuration.Uses used node) : configuration.Uses template node := by
  induction hnode with
  | own hmem => exact .through h hfind hmem
  | through _ hother hmem ih => exact .through ih hother hmem

/-- The names around a template are all different if no partial that it uses leads back to itself,
so they are at most as many as there are partials. -/
theorem fits_of_around {depth : Nat} {around : List String} (hdistinct : around.Nodup)
    (haround : around ⊆ configuration.partials.keys)
    (hacyclic : ∀ name context, configuration.Uses template (.partialCall name context) →
      ¬ Relation.TransGen configuration.Refers name name)
    (hrefers : ∀ outer ∈ around, ∀ name context, .partialCall name context ∈ allNodes template →
      Relation.TransGen configuration.Refers outer name)
    (hdepth : configuration.partials.length < depth + around.length) :
    configuration.Fits depth template := by
  induction depth generalizing template around with
  | zero =>
    -- At depth zero more partials would surround the template than are registered.
    have hlength : around.length ≤ configuration.partials.keys.length :=
      (hdistinct.subperm haround).length_le
    rw [Table.keys, List.length_map] at hlength
    omega
  | succ depth ih =>
    intro name context used hmem hfind
    have huses : configuration.Uses template (.partialCall name context) := .own hmem
    -- A partial that already surrounds the template would refer to itself.
    have hnew : name ∉ around := fun hin =>
      hacyclic name context huses (hrefers name hin name context hmem)
    have hkey : name ∈ configuration.partials.keys := by
      rw [← Table.isSome_find?_iff]
      exact Option.isSome_of_eq_some hfind
    refine ih (List.nodup_cons.2 ⟨hnew, hdistinct⟩) (List.cons_subset.2 ⟨hkey, haround⟩) ?_ ?_ ?_
    · exact fun next context' hnext => hacyclic next context' (huses.of_partial hfind hnext)
    · intro outer houter next context' hnext
      have hstep : configuration.Refers name next := ⟨used, context', hfind, hnext⟩
      rcases List.mem_cons.1 houter with rfl | hearlier
      · exact .single hstep
      · exact (hrefers outer hearlier name context hmem).tail hstep
    · rw [List.length_cons]
      omega

/-- If no partial that a template uses leads back to itself, no more partials are inside each other
than are registered. -/
theorem fits_of_acyclic {depth : Nat}
    (hacyclic : ∀ name context, configuration.Uses template (.partialCall name context) →
      ¬ Relation.TransGen configuration.Refers name name)
    (hdepth : configuration.partials.length < depth) : configuration.Fits depth template :=
  fits_of_around List.nodup_nil (List.nil_subset _) hacyclic (fun _ houter => by cases houter)
    hdepth

/-- A partial that refers to none does not lead back to itself. -/
theorem not_transGen_refers {name : String} (h : ∀ other, ¬ configuration.Refers name other) :
    ¬ Relation.TransGen configuration.Refers name name := by
  intro hback
  obtain ⟨next, hstep, -⟩ := Relation.TransGen.head'_iff.1 hback
  exact h next hstep

theorem not_refers_of_text {name content : String}
    (h : configuration.findPartial? name = some [.text content]) (other : String) :
    ¬ configuration.Refers name other := by
  rintro ⟨used, context, hfind, hmem⟩
  rw [h] at hfind
  cases hfind
  cases List.mem_singleton.1 hmem

end BraceTemplate.Configuration
