import BraceTemplate.Proofs.Joining.Templates

/-!
# Renders into a sink that is too small

What a render writes to a sink does not depend on the sink, but for the point at which it is full:
there the render ends with the error of a failed write. `Yields` says so of a part with the text
that it writes, and `yieldsFrom_render` finds such a text for every template.
-/

namespace BraceTemplate

/-! ## Parts that write a text -/

/-- A part of a render, started with the given registries, writes a text, ends with a result and
leaves some registries. Where there is no room for all of the text, what fits is written and the
part ends with the error of a failed write. -/
structure Yields {α : Type} (part : Render α) (configuration : Configuration)
    (result : Except Error α) (text : String) (after : Configuration) : Prop where
  kept : ∀ sink : Sink, (sink.write text).2 = true →
    part ⟨sink, configuration⟩ = some (result, ⟨(sink.write text).1, after⟩)
  cut : ∀ sink : Sink, (sink.write text).2 = false →
    ∃ left, part ⟨sink, configuration⟩ = some (.error .write, ⟨(sink.write text).1, left⟩)

/-- A part of a render writes some text from the given registries on, or it has no end on a sink
without a limit. -/
def YieldsFrom {α : Type} (configuration : Configuration) (part : Render α) : Prop :=
  (∃ result text after, Yields part configuration result text after) ∨
    ∀ written, part ⟨.unlimited written, configuration⟩ = none

variable {α β : Type} {configuration between after : Configuration}

namespace Yields

/-- A part that ends at once yields an empty text, for which there is always room. -/
theorem of_ended {part : Render α} {result : Except Error α}
    (h : ∀ sink, part ⟨sink, configuration⟩ = some (result, ⟨sink, after⟩)) :
    Yields part configuration result "" after := by
  constructor
  · intro sink _
    rw [Sink.write_empty]
    exact h sink
  · intro sink hcut
    rw [Sink.write_empty] at hcut
    cases hcut

theorem write (text : String) :
    Yields (Render.write text) configuration (.ok ()) text configuration := by
  constructor
  · intro sink hkept
    rw [Render.write_apply, if_pos hkept]
  · intro sink hcut
    refine ⟨configuration, ?_⟩
    rw [Render.write_apply, hcut, if_neg Bool.false_ne_true]

/-- What goes on after a part writes after it. -/
theorem bind {part : Render α} {next : α → Render β} {a : α} {text later : String}
    {result : Except Error β} (hpart : Yields part configuration (.ok a) text between)
    (hnext : Yields (next a) between result later after) :
    Yields (part >>= next) configuration result (text ++ later) after := by
  constructor
  · intro sink hkept
    rw [Sink.write_append] at hkept ⊢
    cases hfirst : (sink.write text).2 with
    | true =>
      rw [hfirst, if_pos rfl] at hkept
      rw [if_pos rfl, Render.bind_apply, hpart.kept sink hfirst]
      exact hnext.kept _ hkept
    | false =>
      rw [hfirst, if_neg Bool.false_ne_true, hfirst] at hkept
      cases hkept
  · intro sink hcut
    rw [Sink.write_append] at hcut ⊢
    cases hfirst : (sink.write text).2 with
    | true =>
      rw [hfirst, if_pos rfl] at hcut
      rw [if_pos rfl, Render.bind_apply, hpart.kept sink hfirst]
      exact hnext.cut _ hcut
    | false =>
      -- The first part was cut off, so the second one is not begun.
      obtain ⟨left, hleft⟩ := hpart.cut sink hfirst
      refine ⟨left, ?_⟩
      rw [if_neg Bool.false_ne_true, Render.bind_apply, hleft]

theorem bind_error {part : Render α} {next : α → Render β} {error : Error} {text : String}
    (hpart : Yields part configuration (.error error) text after) :
    Yields (part >>= next) configuration (.error error) text after := by
  constructor
  · intro sink hkept
    rw [Render.bind_apply, hpart.kept sink hkept]
  · intro sink hcut
    obtain ⟨left, hleft⟩ := hpart.cut sink hcut
    refine ⟨left, ?_⟩
    rw [Render.bind_apply, hleft]

/-- What a part yields depends on what it does with the given registries only. -/
theorem congr {part other : Render α} {result : Except Error α} {text : String}
    (h : Yields part configuration result text after)
    (hsame : ∀ sink, other ⟨sink, configuration⟩ = part ⟨sink, configuration⟩) :
    Yields other configuration result text after :=
  ⟨fun sink hkept => (hsame sink).trans (h.kept sink hkept), fun sink hcut =>
    (h.cut sink hcut).imp fun _ hleft => (hsame sink).trans hleft⟩

theorem unlimited {part : Render α} {result : Except Error α} {text : String}
    (h : Yields part configuration result text after) (written : String) :
    part ⟨.unlimited written, configuration⟩ =
      some (result, ⟨.unlimited (written ++ text), after⟩) :=
  h.kept (.unlimited written) rfl

/-- A part that is captured writes to a sink of its own, which has room for everything. -/
theorem capture {inner : Render Unit} {result : Except Error Unit} {text : String}
    (h : Yields inner configuration result text after) :
    Yields (Render.capture inner) configuration (.ok (text, Render.errorOf result)) "" after := by
  refine of_ended fun sink => ?_
  rw [Render.capture, h.unlimited, String.empty_append]
  rfl

end Yields

namespace YieldsFrom

theorem of_ended {part : Render α} (result : Except Error α) (after : Configuration)
    (h : ∀ sink, part ⟨sink, configuration⟩ = some (result, ⟨sink, after⟩)) :
    YieldsFrom configuration part :=
  .inl ⟨result, "", after, .of_ended h⟩

/-- Two parts in sequence yield when each of them does, whatever configuration the first leaves. -/
theorem bind {part : Render α} {next : α → Render β} (hpart : YieldsFrom configuration part)
    (hnext : ∀ a between, YieldsFrom between (next a)) :
    YieldsFrom configuration (part >>= next) := by
  rcases hpart with ⟨result, text, between, hpart⟩ | hendless
  · cases result with
    | error error => exact .inl ⟨.error error, text, between, hpart.bind_error⟩
    | ok a =>
      rcases hnext a between with ⟨result, later, after, hnext⟩ | hendless
      · exact .inl ⟨result, text ++ later, after, hpart.bind hnext⟩
      · refine .inr fun written => ?_
        rw [Render.bind_apply, hpart.unlimited]
        exact hendless _
  · refine .inr fun written => ?_
    rw [Render.bind_apply, hendless]

/-- A part that asks for the registries is the part for those that it is started with. -/
theorem configuration_bind {next : Configuration → Render β}
    (h : YieldsFrom configuration (next configuration)) :
    YieldsFrom configuration (Render.configuration >>= next) :=
  h.imp (fun ⟨result, text, after, hnext⟩ => ⟨result, text, after, ⟨hnext.kept, hnext.cut⟩⟩)
    fun hendless => hendless

theorem registerPartial (name source : String) :
    YieldsFrom configuration (Render.registerPartial name source) := by
  cases hread : Template.read configuration.isRegistered source with
  | error error =>
    refine of_ended (.error error) configuration fun sink => ?_
    rw [Render.registerPartial_apply, hread]
  | ok template =>
    refine of_ended (.ok ()) (configuration.register (.template name template)) fun sink => ?_
    rw [Render.registerPartial_apply, hread]

theorem capture {inner : Render Unit} (h : YieldsFrom configuration inner) :
    YieldsFrom configuration (Render.capture inner) := by
  rcases h with ⟨result, text, after, hinner⟩ | hendless
  · exact .inl ⟨_, _, after, hinner.capture⟩
  · refine .inr fun written => ?_
    rw [Render.capture, hendless]

/-- To write a text from any registries on is kept by putting parts together. -/
def congruence : Congruence where
  registries _ := True
  fails _ := True
  Rel _ part := ∀ configuration, YieldsFrom configuration part
  rel_pure a configuration := of_ended (.ok a) configuration fun _ => rfl
  rel_fail _ configuration := of_ended (.error _) configuration fun _ => rfl
  rel_write text _ := .inl ⟨_, text, _, .write text⟩
  rel_bind hpart hnext _ := (hpart _).bind hnext
  rel_configuration_bind hnext configuration :=
    configuration_bind (hnext configuration trivial configuration)
  rel_register _ configuration := of_ended (.ok ()) (configuration.register _) fun _ => rfl
  rel_registerPartial _ _ := registerPartial _ _
  rel_capture_bind hinner hnext _ :=
    (hinner _).capture.bind fun captured => hnext captured.1 captured.2 fun _ _ => trivial

end YieldsFrom

/-! ## Templates -/

/-- All registries and errors are allowed. -/
theorem Script.obeys_true {convention : Convention} (script : Script convention) :
    script.Obeys (fun _ => True) (fun _ => True) := by
  induction script with
  | done => trivial
  | fail error => trivial
  | write text next ih => exact ih
  | registerInline name helper next _ ih => exact ⟨fun _ _ => trivial, ih⟩
  | registerBlock name helper next _ ih => exact ⟨fun _ _ => trivial, ih⟩
  | registerPartial name source next ih =>
    exact ⟨fun _ _ => ⟨fun _ _ => trivial, fun _ _ => trivial⟩, ih⟩
  | render part scope next ih => exact ih
  | capture part scope next ih => exact fun text error _ => ih text error

/-- Every template writes some text, whatever helpers and partials it calls. -/
theorem yieldsFrom_render (depth : Nat) (template : Template) (frame : Frame)
    (configuration : Configuration) :
    YieldsFrom configuration (template.render depth frame) := by
  induction depth generalizing template frame configuration with
  | zero => exact .inr fun _ => rfl
  | succ depth ih =>
    -- No helper is excluded here: the congruence asks nothing of the scripts.
    have hserves : ∀ node ∈ allNodes template, YieldsFrom.congruence.Serves
        (Template.render depth) (Template.render depth) (fun _ => none) node := by
      intro node _
      cases node with
      | text content => trivial
      | output path => trivial
      | inlineCall name arguments =>
        exact fun _ _ => ⟨fun helper _ frame values _ => Script.obeys_true _, fun _ => trivial⟩
      | blockCall name arguments body inverse =>
        exact fun _ _ =>
          ⟨fun helper _ frame values hasInverse _ => Script.obeys_true _, fun _ => trivial⟩
      | pathBlock path body inverse => trivial
      | partialCall name context =>
        intro frame
        rw [replaced_none]
        exact Congruence.rel_partialCall
          (fun _ _ => ⟨fun template _ frame => ih template frame, fun _ => trivial⟩) context frame
    have hyields := Congruence.rel_renderNodes template hserves frame
    rw [replaceAll_none] at hyields
    exact hyields configuration

/-- A sink with limited room keeps a text, or as much of it as there is room for. -/
theorem Sink.write_limited (room : Nat) (text : String) :
    (Sink.limited room).write text =
      if text.length ≤ room then (⟨text, some (room - text.length)⟩, true)
      else (⟨String.ofList (text.toList.take room), some 0⟩, false) := by
  rw [Sink.limited, Sink.write, String.empty_append, String.empty_append]

/-- A template that is rendered into a sink with limited room writes what it writes into one without
a limit, and ends in the same way, if there is room for all of it. Otherwise the sink keeps as many
of the first characters as it has room for, and the render ends with the error of a failed write. No
script of a helper can go on after a text that it writes or a body that it renders has failed, and
the bodies that it captures are written to a sink of their own. -/
theorem run_limited {workspace : Workspace} {renderer : Renderer} {depth : Nat} {data : Value}
    {outcome : Workspace.Outcome}
    (h : workspace.run renderer.environment (.unlimited "")
      (renderer.template.render depth (.root data)) = some outcome) (room : Nat) :
    ∃ limited, workspace.run renderer.environment (.limited room)
        (renderer.template.render depth (.root data)) = some limited ∧
      if outcome.sink.written.length ≤ room then
        limited.sink.written = outcome.sink.written ∧ limited.result = outcome.result ∧
          limited.workspace = outcome.workspace
      else
        limited.sink.written = String.ofList (outcome.sink.written.toList.take room) ∧
          limited.result = .error .write := by
  rw [Workspace.run_eq] at h ⊢
  rcases yieldsFrom_render depth renderer.template (.root data)
    (workspace.configuration renderer.environment) with ⟨result, text, after, hyields⟩ | hendless
  · rw [hyields.unlimited, String.empty_append, Option.map_some, Option.some_inj] at h
    subst h
    have hwrite := Sink.write_limited room text
    show ∃ limited, _ ∧ if text.length ≤ room then _ else _
    -- Everything fits, or the write that does not fit is the last thing that happens.
    split
    · next hroom =>
      rw [if_pos hroom] at hwrite
      rw [hyields.kept (.limited room) (by rw [hwrite]), hwrite]
      exact ⟨_, rfl, rfl, rfl, rfl⟩
    · next hroom =>
      rw [if_neg hroom] at hwrite
      obtain ⟨left, hleft⟩ := hyields.cut (.limited room) (by rw [hwrite])
      rw [hleft, hwrite]
      exact ⟨_, rfl, rfl, rfl⟩
  · rw [hendless] at h
    cases h

/-- A loop that writes four characters before a helper is missed: with room for four the same error
is reported, and with room for three the third write is the last one. -/
theorem run_limited_each :
    let workspace := (Workspace.empty.create .builtIn).1
    let loop : Node :=
      .blockCall "each" [.path (Path.ofWord "a")] [.output (Path.ofWord "this"), .text ","] none
    let renderer : Renderer := ⟨[loop, .inlineCall "nope" []], ⟨0⟩⟩
    let data : Value := .object [("a", .array [.string "x", .string "y"])]
    let run (sink : Sink) := workspace.run renderer.environment sink
      (renderer.template.render 1 (.root data))
    (∃ outcome, run (.unlimited "") = some outcome ∧ outcome.sink.written = "x,y," ∧
        outcome.result = .error (.missingHelper "nope")) ∧
      (∃ limited, run (.limited 4) = some limited ∧ limited.sink.written = "x,y," ∧
        limited.result = .error (.missingHelper "nope")) ∧
      ∃ limited, run (.limited 3) = some limited ∧ limited.sink.written = "x,y" ∧
        limited.result = .error .write := by
  intro workspace loop renderer data run
  have h : run (.unlimited "") = some ⟨.error (.missingHelper "nope"), .unlimited "x,y,",
      workspace.setConfiguration ⟨0⟩ .builtIn⟩ := rfl
  refine ⟨⟨_, h, rfl, rfl⟩, ?_, ?_⟩
  · obtain ⟨limited, hrun, hkept⟩ := run_limited h 4
    rw [if_pos (by decide)] at hkept
    exact ⟨limited, hrun, hkept.1, hkept.2.1⟩
  · obtain ⟨limited, hrun, hcut⟩ := run_limited h 3
    rw [if_neg (by decide)] at hcut
    exact ⟨limited, hrun, hcut.1.trans (by decide), hcut.2⟩

end BraceTemplate
