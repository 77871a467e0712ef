import BraceTemplate.Proofs.Joining.Reading
import BraceTemplate.Proofs.Rendering.Output
import BraceTemplate.Workspace

/-!
# Templates in a row

Two templates of which the first one ends with a line can be compiled as one. `compile_append` shows
that it writes what the first one writes and then, unless that failed, what the second one writes.
-/

namespace BraceTemplate

open Scanner (openBraces)

/-- A text is empty or ends with a newline. -/
def EndsLine (text : String) : Prop :=
  text = "" ∨ text.toList.getLast? = some '\n'

/-! ## Rendering what has been read -/

theorem renderNodes_textNodes (renderPartial : Template → Frame → Render Unit) (content : List Char)
    (frame : Frame) :
    renderNodes renderPartial (textNodes content) frame = Render.write (String.ofList content) := by
  cases content with
  | nil => exact write_empty.symm
  | cons c cs => exact bind_pure_unit

theorem render_text (text : String) (frame : Frame) :
    Template.render partialDepth (textNodes text.toList) frame = Render.write text := by
  obtain ⟨depth, hdepth⟩ : ∃ depth, partialDepth = depth + 1 := ⟨1999999, rfl⟩
  rw [hdepth, Template.render_succ, renderNodes_textNodes, String.ofList_toList]

/-- The text that two templates share is written as its two halves are. -/
theorem renderNodes_seam (renderPartial : Template → Frame → Render Unit)
    (before after : List Node) (ending beginning : List Char) (frame : Frame) :
    renderNodes renderPartial (before ++ (textNodes (ending ++ beginning) ++ after)) frame =
      renderNodes renderPartial (before ++ textNodes ending) frame >>= fun _ =>
        renderNodes renderPartial (textNodes beginning ++ after) frame := by
  simp only [renderNodes_append, renderNodes_textNodes, String.ofList_append, write_append,
    bind_assoc]

/-- Two templates that are read as one are rendered one after the other. -/
theorem exists_read_append {registered : String → Bool} {first second : String}
    {former latter : Template} (hline : EndsLine first)
    (hformer : Template.read registered first = .ok former)
    (hlatter : Template.read registered second = .ok latter) :
    ∃ joined, Template.read registered (first ++ second) = .ok joined ∧ ∀ depth frame,
      joined.render depth frame =
        former.render depth frame >>= fun _ => latter.render depth frame := by
  rcases hline with rfl | hend
  -- The empty template is read as no nodes at all.
  · have hempty := @read_text registered "" (by decide)
    rw [hempty] at hformer
    obtain rfl := Except.ok.inj hformer
    refine ⟨latter, by rwa [String.empty_append], ?_⟩
    intro depth frame
    cases depth with
    | zero => rfl
    | succ depth => exact (pure_bind () fun _ => latter.render (depth + 1) frame).symm
  · obtain ⟨before, ending, beginning, after, rfl, rfl, hread⟩ := read_append hend hformer hlatter
    refine ⟨_, hread, ?_⟩
    intro depth frame
    cases depth with
    | zero => rfl
    | succ depth => exact renderNodes_seam _ before after ending beginning frame

/-! ## Running one template after another -/

namespace Workspace

/-- How a run ended, and what its sink holds. -/
def outputOf (outcome : Option Outcome) : Option (Except Error Unit × String) :=
  outcome.map fun outcome => (outcome.result, outcome.sink.written)

/-- How a render of some data ends, and what it writes. -/
def output (workspace : Workspace) (renderer : Renderer) (data : Value) :
    Option (Except Error Unit × String) :=
  outputOf (workspace.render renderer data (.unlimited ""))

/-- Goes on with a sink as it was left, unless the run ended with an error. -/
def Outcome.andThen (outcome : Outcome) (next : Sink → Option Outcome) : Option Outcome :=
  match outcome.result with
  | .ok () => next outcome.sink
  | .error _ => some outcome

/-- Writes one thing after another, unless the first one ended with an error. -/
def followedBy (former latter : Option (Except Error Unit × String)) :
    Option (Except Error Unit × String) :=
  match former with
  | some (.ok (), written) => latter.map fun (result, later) => (result, written ++ later)
  | ended => ended

theorem compile_eq_ok {workspace : Workspace} {environment : Environment} {text : String}
    {renderer : Renderer} :
    workspace.compile environment text = .ok renderer ↔ ∃ template,
      Template.read (workspace.configuration environment).isRegistered text = .ok template ∧
      ⟨template, environment⟩ = renderer := by
  rw [compile, Results.bind_eq_ok]
  constructor
  · rintro ⟨template, htemplate, h⟩
    exact ⟨template, htemplate, Except.ok.inj h⟩
  · rintro ⟨template, htemplate, rfl⟩
    exact ⟨template, htemplate, rfl⟩

variable {workspace : Workspace} {environment : Environment}

/-- The outcome of what a render came to. -/
def outcomeOf (workspace : Workspace) (environment : Environment)
    (ended : Except Error Unit × RenderState) : Outcome :=
  ⟨ended.1, ended.2.sink, workspace.setConfiguration environment ended.2.configuration⟩

theorem run_eq (sink : Sink) (action : Render Unit) :
    workspace.run environment sink action =
      (action ⟨sink, workspace.configuration environment⟩).map
        (workspace.outcomeOf environment) := by
  unfold run
  cases action ⟨sink, workspace.configuration environment⟩ <;> rfl

/-- Parts of a render in a row are run one after the other, if the first one leaves the registries
as they are. -/
theorem run_bind {part next : Render Unit}
    (hpart : Appends (workspace.configuration environment) part) (sink : Sink) :
    workspace.run environment sink (part >>= fun _ => next) =
      (workspace.run environment sink part).bind fun outcome =>
        outcome.andThen fun sink => workspace.run environment sink next := by
  rw [run_eq, run_eq, Render.bind_apply]
  cases hfirst : part ⟨sink, workspace.configuration environment⟩ with
  | none => rfl
  | some ended =>
    obtain ⟨result, kept, configuration⟩ := ended
    obtain rfl : configuration = workspace.configuration environment := hpart.keeps _ _ _ hfirst
    cases result with
    | error error => rfl
    | ok => exact (run_eq kept next).symm

/-- What a part writes to a sink without a limit does not depend on what has been written before. -/
theorem exists_run_unlimited {part : Render Unit}
    (hpart : Appends (workspace.configuration environment) part) :
    ∃ output : Option (Except Error Unit × String), ∀ written,
      workspace.run environment (.unlimited written) part = output.map fun ended =>
        workspace.outcomeOf environment
          (endAfter (workspace.configuration environment) written ended) := by
  obtain ⟨output, houtput⟩ := hpart.output
  refine ⟨output, fun written => ?_⟩
  rw [run_eq, houtput, Option.map_map]
  rfl

/-- What two parts write in a row is what the first one writes and then what the second one writes,
unless the first one ends with an error. -/
theorem output_bind {part next : Render Unit}
    (hpart : Appends (workspace.configuration environment) part)
    (hnext : Appends (workspace.configuration environment) next) :
    outputOf (workspace.run environment (.unlimited "") (part >>= fun _ => next)) =
      followedBy (outputOf (workspace.run environment (.unlimited "") part))
        (outputOf (workspace.run environment (.unlimited "") next)) := by
  obtain ⟨first, hfirst⟩ := exists_run_unlimited hpart
  obtain ⟨second, hsecond⟩ := exists_run_unlimited hnext
  rw [run_bind hpart, hfirst, hsecond]
  rcases first with - | ⟨error | -, text⟩
  -- Without an ending or with an error the second part does not run.
  · rfl
  · rfl
  -- What the second part writes into a sink that holds a text comes after that text.
  · show outputOf (workspace.run environment (.unlimited ("" ++ text)) next) = _
    rw [hsecond]
    cases second with
    | none => rfl
    | some ended =>
      show some (_, "" ++ text ++ ended.2) = some (_, "" ++ text ++ ("" ++ ended.2))
      rw [String.empty_append (s := ended.2)]
      rfl

end Workspace

/-! ## The templates of an environment -/

/-- If the helpers of an environment register nothing, then two templates can be compiled as one
when the first one ends with a line: it renders as the first one does and then, unless that ended
with an error, as the second one does, and what both write does not depend on each other. A template
without braces is written as it stands. -/
theorem compile_append :
    (∀ (workspace : Workspace) (environment : Environment) (first second : String)
        (former latter : Renderer), (workspace.configuration environment).KeepsRegistries →
        EndsLine first → workspace.compile environment first = .ok former →
        workspace.compile environment second = .ok latter →
        ∃ joined, workspace.compile environment (first ++ second) = .ok joined ∧ ∀ data,
          workspace.output joined data =
            Workspace.followedBy (workspace.output former data) (workspace.output latter data) ∧
          ∀ sink, workspace.render joined data sink =
            (workspace.render former data sink).bind fun outcome =>
              outcome.andThen (workspace.render latter data)) ∧
      ∀ (workspace : Workspace) (environment : Environment) (text : String),
        ¬ openBraces <:+: text.toList →
        ∃ renderer, workspace.compile environment text = .ok renderer ∧
          ∀ data, workspace.output renderer data = some (.ok (), text) := by
  constructor
  · intro workspace environment first second former latter hkeeps hline hformer hlatter
    obtain ⟨template, hfirst, rfl⟩ := Workspace.compile_eq_ok.1 hformer
    obtain ⟨template', hsecond, rfl⟩ := Workspace.compile_eq_ok.1 hlatter
    obtain ⟨joined, hjoined, hrender⟩ := exists_read_append hline hfirst hsecond
    refine ⟨_, Workspace.compile_eq_ok.2 ⟨joined, hjoined, rfl⟩, ?_⟩
    intro data
    have hpart := appends_render hkeeps partialDepth template (.root data)
    have hnext := appends_render hkeeps partialDepth template' (.root data)
    -- The joined template renders as the two in sequence, at one and the same depth.
    have hparts := hrender partialDepth (.root data)
    constructor
    · have houtput := Workspace.output_bind hpart hnext
      rwa [← hparts] at houtput
    · intro sink
      have hrun := @Workspace.run_bind _ _ _ (template'.render partialDepth (.root data)) hpart sink
      rwa [← hparts] at hrun
  · intro workspace environment text h
    refine ⟨_, Workspace.compile_eq_ok.2 ⟨_, read_text _ h, rfl⟩, ?_⟩
    intro data
    have hrender := render_text text (.root data)
    show Workspace.outputOf (workspace.run environment _ (Template.render _ _ _)) = _
    rw [hrender, Workspace.run_eq, Render.write_apply]
    show some (_, "" ++ text) = _
    rw [String.empty_append]
    rfl

/-- A line of text before a tag: it is written as it stands, and the tag writes what it writes when
it is alone. -/
theorem compile_append_line :
    let tag := "\x7b\x7b ./x \x7d\x7d"
    let tokens : List Token := [.tagOpen, .piece (.word "./x" (some .this)), .tagClose]
    let workspace := (Workspace.empty.create .builtIn).1
    let environment := (Workspace.empty.create .builtIn).2
    tokenize tag = .ok tokens ∧ ∃ latter joined, workspace.compile environment tag = .ok latter ∧
      workspace.compile environment ("a\n" ++ tag) = .ok joined ∧ ∀ data,
        workspace.output joined data =
          Workspace.followedBy (some (.ok (), "a\n")) (workspace.output latter data) := by
  intro tag tokens workspace environment
  have hbuiltIn : workspace.configuration environment = .builtIn :=
    Workspace.configuration_create _ _
  have hkeeps : (workspace.configuration environment).KeepsRegistries :=
    hbuiltIn ▸ keepsRegistries_builtIn
  have hword : IsWord "./x".toList := @isWord_of_wordLength _ [] rfl
  have hplain : ¬ StartsWithSigil (.word "./x" (some .this)) := by
    rintro ⟨_, _, heq, hsigil⟩
    cases heq
    exact hsigil rfl
  have htag : TagContents [.word "./x" (some .this)] :=
    .plain (.word rfl (by decide) hword) hplain (List.forall_mem_nil _)
  have hwf : WellFormed tokens := .tag htag .nil
  have htokens : tokenize tag = .ok tokens :=
    @tokenize_print [' '] (List.forall_mem_singleton.2 rfl) (by decide) tokens hwf
  have hread : Template.read (workspace.configuration environment).isRegistered tag = .ok _ :=
    read_of_tokenize htokens rfl (pairBlocks_nodes [.output (Path.ofWord "./x")])
  have hlatter := Workspace.compile_eq_ok.2 ⟨_, hread, rfl⟩
  obtain ⟨former, hformer, houtput⟩ := compile_append.2 workspace environment "a\n" (by decide)
  obtain ⟨joined, hjoined, hdata⟩ := compile_append.1 workspace environment "a\n" tag former _
    hkeeps (.inr (by decide)) hformer hlatter
  refine ⟨htokens, _, joined, hlatter, hjoined, ?_⟩
  intro data
  rw [(hdata data).1, houtput]

end BraceTemplate
