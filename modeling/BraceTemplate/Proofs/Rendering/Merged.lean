import BraceTemplate.Proofs.MergedContext
import BraceTemplate.Proofs.Reading.Names

/-!
# Merged contexts as data

A merged context finds its members up to case, but it is rendered as one object, in which names are
exact. `member?_toValue` says which members are left: those asked for by the spelling that goes
first, by which `renderMerged_eq` is what a template writes for a name.
-/

namespace BraceTemplate

open Element (isPathWord)

/-! ## Tables -/

namespace Table

variable {α : Type}

/-- The names of a list that have a value are found among it with their values. -/
theorem find?_filterMap (names : List String) (value? : String → Option α) (name : String) :
    find? (names.filterMap fun key => (value? key).map fun value => (key, value)) name =
      if name ∈ names then value? name else none := by
  induction names with
  | nil => rfl
  | cons key names ih =>
    cases hvalue : value? key with
    | none =>
      rw [List.filterMap_cons_none (by rw [hvalue]; rfl), ih]
      by_cases hname : name = key
      · subst hname
        rw [hvalue, ite_self, ite_self]
      · simp only [List.mem_cons, hname, false_or]
    | some value =>
      rw [List.filterMap_cons_some (by rw [hvalue]; rfl), find?_cons, ih]
      by_cases hname : key = name
      · subst hname
        rw [if_pos rfl, if_pos List.mem_cons_self, hvalue]
      · simp only [hname, if_false, List.mem_cons, Ne.symm hname, false_or]

theorem keys_filterMap_sublist (names : List String) (value? : String → Option α) :
    List.Sublist
      (keys (names.filterMap fun key => (value? key).map fun value => (key, value))) names := by
  induction names with
  | nil => exact List.Sublist.refl _
  | cons key names ih =>
    cases hvalue : value? key with
    | none =>
      rw [List.filterMap_cons_none (by rw [hvalue]; rfl)]
      exact ih.cons key
    | some value =>
      rw [List.filterMap_cons_some (by rw [hvalue]; rfl)]
      exact ih.cons_cons key

end Table

namespace MergedContext

/-- The object that a merged context stands for has the members that are asked for as they are
listed. -/
theorem member?_toValue (merged : MergedContext) (name : String) :
    merged.toValue.member? name =
      if name ∈ merged.memberNames then merged.member? name else none := by
  have hnames : merged.memberNames.Nodup := List.Nodup.of_map _ merged.distinctUpToCase_memberNames
  have hkeys := hnames.sublist (Table.keys_filterMap_sublist merged.memberNames merged.member?)
  exact (Table.find?_ofPairs hkeys name).trans (Table.find?_filterMap _ _ name)

end MergedContext

/-! ## Rendering a name -/

/-- The path that is a single name leads from an outermost frame to the member of its value. -/
theorem Frame.lookup_root_name (value : Value) (name : String) :
    (Frame.root value).lookup ⟨[name], 0, .current⟩ = value.member? name :=
  (Value.descend?_cons value name []).trans (Option.bind_fun_some _)

/-- A template that is one path writes the text of the value it leads to, if there is one. -/
theorem Workspace.run_output (workspace : Workspace) (environment : Environment) (path : Path)
    (frame : Frame) (written : String) :
    workspace.run environment (.unlimited written)
        (Template.render partialDepth [.output path] frame) =
      some ⟨.ok (), .unlimited (written ++ (frame.lookup path).elim "" Value.text),
        workspace.setConfiguration environment (workspace.configuration environment)⟩ := by
  obtain ⟨depth, hdepth⟩ : ∃ depth, partialDepth = depth + 1 := ⟨1999999, rfl⟩
  rw [hdepth, Template.render_succ, renderNodes, renderNodes, renderNode]
  cases frame.lookup path with
  | none =>
    rw [Option.elim_none, String.append_empty]
    rfl
  | some value => rfl

/-- A template that is a plain name writes what a merged context finds under that name, as long as
the name is listed in this spelling, and nothing otherwise. Every name that is found is listed in
exactly one spelling. If no single object has two names that are the same up to case, what is found
does not depend on the spelling. -/
theorem renderMerged_eq {workspace : Workspace} {environment : Environment} {text name : String}
    (h : tokenize text = .ok (Segment.toTokens (.tag [.word name none])))
    (hpath : isPathWord name none = false)
    (hhelper : isHelperWord (workspace.configuration environment).isRegistered name = false) :
    ∃ renderer, workspace.compile environment text = .ok renderer ∧
      ∀ (later : Workspace) (merged : MergedContext),
        (∃ outcome, later.renderMerged renderer merged (.unlimited "") = some outcome ∧
          outcome.result = .ok () ∧
          outcome.sink = .unlimited
            (if name ∈ merged.memberNames then (merged.member? name).elim "" Value.text else "")) ∧
        ((merged.member? name).isSome = true → ∃! spelling, spelling ∈ merged.memberNames ∧
          Text.sameUpToCase spelling name = true) ∧
        (merged.ObjectsDistinct → ∀ asked, Text.sameUpToCase name asked = true →
          merged.member? name = merged.member? asked) := by
  have hcompile : workspace.compile environment text =
      .ok ⟨[.output ⟨[name], 0, .current⟩], environment⟩ := by
    rw [Workspace.compile, read_name h hpath hhelper]
    rfl
  refine ⟨_, hcompile, fun later merged => ?_⟩
  refine ⟨⟨_, later.run_output environment _ (.root merged.toValue) "", rfl, ?_⟩, ?_, ?_⟩
  -- What is rendered is the merged object, in which a spelling that is not listed is no member.
  · rw [Frame.lookup_root_name, merged.member?_toValue, String.empty_append]
    split
    · rfl
    · rfl
  · intro hdefined
    obtain ⟨value, hvalue⟩ := Option.isSome_iff_exists.1 hdefined
    exact MergedContext.existsUnique_spelling hvalue
  · exact fun hdistinct asked hsame => MergedContext.member?_congr hdistinct hsame

/-- Of two objects that have a name in different spellings, the first one is rendered, and found by
any spelling. -/
theorem renderMerged_eq_name :
    let workspace := (Workspace.empty.create .builtIn).1
    let merged : MergedContext :=
      ⟨[.object [("name", .string "Marc")], .object [("Name", .string "ignored")]]⟩
    let text := "\x7b\x7b name \x7d\x7d"
    tokenize text = .ok (Segment.toTokens (.tag [.word "name" none])) ∧
      isPathWord "name" none = false ∧
      isHelperWord (workspace.configuration ⟨0⟩).isRegistered "name" = false ∧
      merged.member? "name" = merged.member? "NAME" ∧
      ∃ renderer outcome, workspace.compile ⟨0⟩ text = .ok renderer ∧
        workspace.renderMerged renderer merged (.unlimited "") = some outcome ∧
        outcome.result = .ok () ∧ outcome.sink = .unlimited "Marc" := by
  intro workspace merged text
  have h : tokenize text = .ok _ := tokenize_print_tags [[.word "name" none]] (by decide)
  have hdistinct : merged.ObjectsDistinct := by
    intro members hmem
    rcases List.mem_cons.1 hmem with heq | hmem
    · cases heq
      exact List.nodup_singleton _
    · cases List.mem_singleton.1 hmem
      exact List.nodup_singleton _
  obtain ⟨renderer, hcompile, hrender⟩ := @renderMerged_eq workspace ⟨0⟩ _ _ h rfl rfl
  obtain ⟨⟨outcome, hrun, hresult, hsink⟩, -, hsame⟩ := hrender workspace merged
  exact ⟨h, rfl, rfl, hsame hdistinct "NAME" rfl, renderer, outcome, hcompile, hrun, hresult, hsink⟩

/-- A name in another spelling than the listed one is found in a merged context, but nothing is
written for it. -/
theorem exists_renderMerged_ne_member? :
    let workspace := (Workspace.empty.create .builtIn).1
    let merged : MergedContext := ⟨[.object [("name", .string "Marc")]]⟩
    let text := "\x7b\x7b NAME \x7d\x7d"
    merged.member? "NAME" = some (.string "Marc") ∧
      ∃ renderer outcome, workspace.compile ⟨0⟩ text = .ok renderer ∧
        workspace.renderMerged renderer merged (.unlimited "") = some outcome ∧
        outcome.result = .ok () ∧ outcome.sink = .unlimited "" := by
  intro workspace merged text
  have h : tokenize text = .ok (Segment.toTokens (.tag [.word "NAME" none])) :=
    tokenize_print_tags [[.word "NAME" none]] (by decide)
  have hcompile : workspace.compile ⟨0⟩ text = .ok ⟨[.output ⟨["NAME"], 0, .current⟩], ⟨0⟩⟩ := by
    rw [Workspace.compile, @read_name (workspace.configuration ⟨0⟩).isRegistered _ _ h rfl rfl]
    rfl
  have hrun := workspace.run_output ⟨0⟩ ⟨["NAME"], 0, .current⟩ (.root merged.toValue) ""
  exact ⟨rfl, _, _, hcompile, hrun, rfl, rfl⟩

end BraceTemplate
