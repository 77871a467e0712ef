import BraceTemplate.Proofs.Joining.Reading
import BraceTemplate.Proofs.Reading.Conversions
import BraceTemplate.Render.Compile
import BraceTemplate.Workspace

/-!
# Templates that are read compile

Compiling fails if an expression that has no value stands as an argument. What the tokens of a text
are converted to is well formed: its arguments are literals and paths, and the first argument of a
condition is the truth of one. So it compiles, and what it compiles to is what `renderNodes` does.
Compiling a text fails only where the text is cut into tokens or these are converted. Other tokens
may be converted to expressions that do not compile.
-/

namespace BraceTemplate

/-! ## Well-formed expressions -/

/-- Only a path from the current frame climbs. -/
def Path.ClimbsFromCurrent (path : Path) : Prop :=
  path.anchor ≠ .current → path.hops = 0

namespace Expression

/-- A literal or a path. -/
def IsPlain : Expression → Prop
  | .text _ => True
  | .path target => target.ClimbsFromCurrent
  | _ => False

/-- The truth of a literal or a path, taken once. -/
def IsTest : Expression → Prop
  | .truth operand => operand.IsPlain
  | _ => False

end Expression

/-- The arguments of a block: the first one of a condition is a test, and all others are plain. -/
def ArgumentsFit (name : String) (arguments : List Expression) : Prop :=
  if name = "if" ∨ name = "unless" then
    (∀ first ∈ arguments.head?, first.IsTest) ∧ ∀ argument ∈ arguments.tail, argument.IsPlain
  else ∀ argument ∈ arguments, argument.IsPlain

mutual

/-- An expression that may stand on its own, and those in its bodies at every depth. -/
def Expression.WellFormed : Expression → Prop
  | .text _ => True
  | .path target => target.ClimbsFromCurrent
  | .truth _ => False
  | .inlineCall name arguments => name ≠ "else" ∧ ∀ argument ∈ arguments, argument.IsPlain
  | .blockCall name arguments body inverse =>
    ArgumentsFit name arguments ∧ AllWellFormed body ∧ InverseWellFormed inverse
  | .pathBlock target body inverse =>
    target.ClimbsFromCurrent ∧ AllWellFormed body ∧ InverseWellFormed inverse
  | .partialCall _ context =>
    ∀ expression ∈ context, ∃ target, expression = .path target ∧ target.ClimbsFromCurrent

/-- Expressions in a row that may stand on their own. -/
def AllWellFormed : List Expression → Prop
  | [] => True
  | expression :: expressions => expression.WellFormed ∧ AllWellFormed expressions

/-- An inverse body whose expressions may stand on their own. -/
def InverseWellFormed : Option (List Expression) → Prop
  | none => True
  | some expressions => AllWellFormed expressions

end

/-! ## Well-formed expressions compile -/

theorem Expression.IsPlain.compileValue {expression : Expression} (h : expression.IsPlain) :
    ∃ evaluation, expression.compileValue = .ok evaluation := by
  cases expression with
  | text content => exact ⟨_, rfl⟩
  | path target => exact ⟨_, rfl⟩
  | _ => exact h.elim

theorem Expression.IsTest.compileValue {expression : Expression} (h : expression.IsTest) :
    ∃ evaluation, expression.compileValue = .ok evaluation := by
  cases expression with
  | truth operand =>
    have hoperand : operand.IsPlain := h
    obtain ⟨evaluation, hevaluation⟩ := hoperand.compileValue
    rw [Expression.compileValue, hevaluation]
    exact ⟨_, rfl⟩
  | _ => exact h.elim

theorem ArgumentsFit.compileValue {name : String} {arguments : List Expression}
    (h : ArgumentsFit name arguments) :
    ∀ argument ∈ arguments, ∃ evaluation, argument.compileValue = .ok evaluation := by
  rw [ArgumentsFit] at h
  split at h
  · cases arguments with
    | nil => exact List.forall_mem_nil _
    | cons first rest =>
      exact List.forall_mem_cons.2
        ⟨(h.1 first rfl).compileValue, fun argument hmem => (h.2 argument hmem).compileValue⟩
  · exact fun argument hmem => (h argument hmem).compileValue

mutual

/-- A well-formed expression compiles: its arguments are literals, paths and tests of these. -/
theorem Expression.WellFormed.compile {expression : Expression} (h : expression.WellFormed) :
    ∃ emission, expression.compile = .ok emission := by
  cases expression with
  | text content => exact ⟨_, rfl⟩
  | path target => exact ⟨_, rfl⟩
  | truth operand => exact h.elim
  | inlineCall name arguments =>
    rw [Expression.WellFormed] at h
    obtain ⟨evaluations, hevaluations⟩ :=
      Results.exists_mapM_eq_ok fun argument hmem => (h.2 argument hmem).compileValue
    rw [Expression.compile, hevaluations]
    exact ⟨_, rfl⟩
  | blockCall name arguments body inverse =>
    rw [Expression.WellFormed] at h
    obtain ⟨evaluations, hevaluations⟩ := Results.exists_mapM_eq_ok h.1.compileValue
    obtain ⟨emission, hbody⟩ := exists_compileAll h.2.1
    obtain ⟨emissions, hinverse⟩ := exists_compileInverse h.2.2
    rw [Expression.compile, hevaluations, hbody, hinverse]
    exact ⟨_, rfl⟩
  | pathBlock target body inverse =>
    rw [Expression.WellFormed] at h
    obtain ⟨emission, hbody⟩ := exists_compileAll h.2.1
    obtain ⟨emissions, hinverse⟩ := exists_compileInverse h.2.2
    rw [Expression.compile, hbody, hinverse]
    exact ⟨_, rfl⟩
  -- The context of a partial is a path, and so it has a value.
  | partialCall name context =>
    rw [Expression.WellFormed] at h
    cases context with
    | none => exact ⟨_, rfl⟩
    | some expression =>
      obtain ⟨target, rfl, -⟩ := h expression rfl
      exact ⟨_, rfl⟩

theorem exists_compileAll {expressions : List Expression} (h : AllWellFormed expressions) :
    ∃ emission, compileAll expressions = .ok emission := by
  cases expressions with
  | nil => exact ⟨_, rfl⟩
  | cons expression expressions =>
    rw [AllWellFormed] at h
    obtain ⟨first, hfirst⟩ := h.1.compile
    obtain ⟨rest, hrest⟩ := exists_compileAll h.2
    rw [compileAll, hfirst, hrest]
    exact ⟨_, rfl⟩

theorem exists_compileInverse {inverse : Option (List Expression)} (h : InverseWellFormed inverse) :
    ∃ emission, compileInverse inverse = .ok emission := by
  cases inverse with
  | none => exact ⟨_, rfl⟩
  | some expressions =>
    rw [InverseWellFormed] at h
    obtain ⟨emission, hbody⟩ := exists_compileAll h
    rw [compileInverse, hbody]
    exact ⟨_, rfl⟩

end

/-! ## What a template compiles to -/

theorem Argument.compileValue_toExpression (argument : Argument) :
    argument.toExpression.compileValue = .ok fun frame => argument.value? frame := by
  induction argument with
  | literal text => rfl
  | path target => rfl
  | truth operand ih =>
    rw [Argument.toExpression, Expression.compileValue, ih]
    rfl

theorem mapM_compileValue (arguments : List Argument) :
    (arguments.map Argument.toExpression).mapM Expression.compileValue =
      .ok (arguments.map fun argument frame => argument.value? frame) := by
  induction arguments with
  | nil => rfl
  | cons argument arguments ih =>
    rw [List.map_cons, List.mapM_cons, argument.compileValue_toExpression, ih]
    rfl

/-- The values of compiled arguments are those of the arguments. -/
theorem evaluation_all (arguments : List Argument) (frame : Frame) :
    Evaluation.all (arguments.map fun argument frame => argument.value? frame) frame =
      argumentValues frame arguments := by
  rw [Evaluation.all, List.map_map]
  rfl

/-- What rendering a template does. -/
def renderEmission (nodes : List Node) : Emission :=
  fun renderPartial frame => renderNodes renderPartial nodes frame

theorem orNothing_renderEmission (inverse : Option (List Node)) :
    Emission.orNothing (inverse.map renderEmission) =
      fun renderPartial frame => renderInverse renderPartial inverse frame := by
  funext renderPartial frame
  cases inverse <;> rw [renderInverse] <;> rfl

mutual

/-- The compiled expression of a node is its rendering. -/
theorem Node.compile_toExpression (node : Node) :
    node.toExpression.compile = .ok fun renderPartial frame => renderNode renderPartial node frame := by
  cases node with
  | text content =>
    simp only [renderNode]
    rfl
  | output path =>
    simp only [renderNode]
    rfl
  | inlineCall name arguments =>
    rw [Node.toExpression, Expression.compile, mapM_compileValue]
    simp only [renderNode, ← evaluation_all]
    rfl
  -- A block compiles its bodies first, and its rendering takes them in place of the nodes.
  | blockCall name arguments body inverse =>
    rw [Node.toExpression, Expression.compile, mapM_compileValue, compileAll_toExpressions,
      compileInverse_inverseExpressions]
    refine congrArg Except.ok ?_
    funext renderPartial frame
    rw [Emission.blockCall, orNothing_renderEmission, evaluation_all, Option.isSome_map, renderNode]
    rfl
  | pathBlock path body inverse =>
    rw [Node.toExpression, Expression.compile, compileAll_toExpressions,
      compileInverse_inverseExpressions]
    refine congrArg Except.ok ?_
    funext renderPartial frame
    rw [Emission.pathBlock, orNothing_renderEmission, renderNode]
    rfl
  | partialCall name context =>
    cases context <;> simp only [renderNode] <;> rfl

/-- A template compiles to what rendering it does. -/
theorem compileAll_toExpressions (nodes : List Node) :
    compileAll (toExpressions nodes) = .ok (renderEmission nodes) := by
  cases nodes with
  | nil =>
    refine congrArg Except.ok ?_
    funext renderPartial frame
    rw [renderEmission, renderNodes]
    rfl
  | cons node nodes =>
    rw [toExpressions, compileAll, node.compile_toExpression, compileAll_toExpressions nodes]
    refine congrArg Except.ok ?_
    funext renderPartial frame
    rw [renderEmission, renderNodes]
    rfl

theorem compileInverse_inverseExpressions (inverse : Option (List Node)) :
    compileInverse (inverseExpressions inverse) = .ok (inverse.map renderEmission) := by
  cases inverse with
  | none => rfl
  | some nodes =>
    rw [inverseExpressions, compileInverse, compileAll_toExpressions nodes]
    rfl

end

/-! ## Templates that are read are well formed -/

theorem Argument.Denoted.isPlain {argument : Argument} (h : argument.Denoted) :
    argument.toExpression.IsPlain := by
  cases argument with
  | literal text => trivial
  | path target => exact h.hops_eq_zero
  | truth operand => exact h.elim

theorem isPlain_of_denoted {arguments : List Argument}
    (h : ∀ argument ∈ arguments, argument.Denoted) :
    ∀ expression ∈ arguments.map Argument.toExpression, expression.IsPlain := by
  intro expression hmem
  obtain ⟨argument, hargument, rfl⟩ := List.mem_map.1 hmem
  exact (h argument hargument).isPlain

theorem mem_conditionNames {name : String} :
    conditionNames.contains name = true ↔ name = "if" ∨ name = "unless" := by
  simp [conditionNames]

/-- Testing the first argument of a condition makes it a test. -/
theorem argumentsFit_testArguments (name : String) {arguments : List Argument}
    (h : ∀ argument ∈ arguments, argument.Denoted) :
    ArgumentsFit name ((testArguments name arguments).map Argument.toExpression) := by
  rw [testArguments, ArgumentsFit]
  by_cases hname : name = "if" ∨ name = "unless"
  · rw [if_pos hname, if_pos (mem_conditionNames.2 hname)]
    cases arguments with
    | nil => exact ⟨by rintro _ ⟨⟩, List.forall_mem_nil _⟩
    | cons first rest =>
      obtain ⟨hfirst, hrest⟩ := List.forall_mem_cons.1 h
      refine ⟨?_, isPlain_of_denoted hrest⟩
      rintro _ ⟨⟩
      exact hfirst.isPlain
  · rw [if_neg hname, if_neg (mt mem_conditionNames.1 hname)]
    exact isPlain_of_denoted h

mutual

/-- With its conditions wrapped a node of denoted words is well-formed. -/
theorem wellFormed_testConditions (node : Node) (h : ∀ part ∈ node.nodes, part.Denoted) :
    node.testConditions.toExpression.WellFormed := by
  cases node with
  | text content => trivial
  | output path => exact (h _ List.mem_cons_self).hops_eq_zero
  | inlineCall name arguments =>
    obtain ⟨hname, harguments⟩ := h _ List.mem_cons_self
    exact ⟨hname, isPlain_of_denoted harguments⟩
  | blockCall name arguments body inverse =>
    rw [Node.nodes, List.forall_mem_cons, List.forall_mem_append] at h
    exact ⟨argumentsFit_testArguments name h.1, allWellFormed_testAll body h.2.1,
      inverseWellFormed_testInverse inverse h.2.2⟩
  | pathBlock path body inverse =>
    rw [Node.nodes, List.forall_mem_cons, List.forall_mem_append] at h
    exact ⟨h.1.hops_eq_zero, allWellFormed_testAll body h.2.1,
      inverseWellFormed_testInverse inverse h.2.2⟩
  | partialCall name context =>
    intro expression hmem
    obtain ⟨path, hpath, rfl⟩ := Option.map_eq_some_iff.1 hmem
    exact ⟨path, rfl, (h _ List.mem_cons_self path hpath).hops_eq_zero⟩

theorem allWellFormed_testAll (nodes : List Node) (h : ∀ part ∈ allNodes nodes, part.Denoted) :
    AllWellFormed (toExpressions (testAll nodes)) := by
  cases nodes with
  | nil => trivial
  | cons node nodes =>
    rw [allNodes, List.forall_mem_append] at h
    exact ⟨wellFormed_testConditions node h.1, allWellFormed_testAll nodes h.2⟩

theorem inverseWellFormed_testInverse (inverse : Option (List Node))
    (h : ∀ part ∈ inverseNodes inverse, part.Denoted) :
    InverseWellFormed (inverseExpressions (testInverse inverse)) := by
  cases inverse with
  | none => trivial
  | some nodes => exact allWellFormed_testAll nodes h

end

/-- A template that has been read is well formed. -/
theorem wellFormed_of_ofTokens {registered : String → Bool} {tokens : List Token}
    {template : Template} (h : Template.ofTokens registered tokens = .ok template) :
    AllWellFormed (toExpressions template) := by
  obtain ⟨nodes, rfl, hnodes⟩ := exists_denoted_of_ofTokens h
  exact allWellFormed_testAll nodes hnodes

/-- So is what the tokens of a text are converted to. -/
theorem wellFormed_of_convert {registered : String → Bool} {text : String} {tokens : List Token}
    {expressions : List Expression} (htokens : tokenize text = .ok tokens)
    (h : Conversion.convert registered tokens = .ok expressions) : AllWellFormed expressions := by
  have hagrees := agrees_convert registered htokens
  rw [h] at hagrees
  obtain ⟨template, htemplate, rfl⟩ := hagrees.exists_ok
  exact wellFormed_of_ofTokens htemplate

/-! ## Compiling a text -/

section

variable {registered : String → Bool} {text : String}

/-- A text that is read compiles to what rendering the template in it does. -/
theorem compileText_of_read {template : Template} (h : Template.read registered text = .ok template) :
    compileText registered text = .ok (renderEmission template) := by
  obtain ⟨tokens, htokens, htemplate⟩ := Results.bind_eq_ok.1 h
  have hagrees := agrees_convert registered htokens
  rw [htemplate] at hagrees
  rw [compileText, htokens]
  show (Conversion.convert registered tokens).mapError CompileFault.converted >>= _ = _
  rw [hagrees.eq_ok]
  show (compileAll (toExpressions template)).mapError CompileFault.compiled = _
  rw [compileAll_toExpressions]
  rfl

/-- A text that is not read does not compile, for the same cause. -/
theorem compileText_of_read_error {error : Error} (h : Template.read registered text = .error error) :
    compileText registered text = .error (.scanned error) ∨
      ∃ fault, compileText registered text = .error (.converted fault) ∧ fault.toError = error := by
  cases htokens : tokenize text with
  | error found =>
    rw [Template.read, htokens] at h
    cases h
    rw [compileText, htokens]
    exact .inl rfl
  | ok tokens =>
    have hagrees := agrees_convert registered htokens
    rw [read_eq_ofTokens htokens] at h
    rw [h] at hagrees
    obtain ⟨fault, hfault, hcause⟩ := hagrees.exists_eq_error
    refine .inr ⟨fault, ?_, hcause⟩
    rw [compileText, htokens]
    show (Conversion.convert registered tokens).mapError CompileFault.converted >>= _ = _
    rw [hfault]
    rfl

/-- Nothing is wrong with the expressions of a text once its tokens are converted. -/
theorem compileText_eq_error {fault : CompileFault} (h : compileText registered text = .error fault) :
    (∃ error, fault = .scanned error ∧ tokenize text = .error error) ∨
      ∃ tokens found, fault = .converted found ∧ tokenize text = .ok tokens ∧
        Conversion.convert registered tokens = .error found := by
  cases htokens : tokenize text with
  | error error =>
    rw [compileText, htokens] at h
    cases h
    exact .inl ⟨error, rfl, rfl⟩
  | ok tokens =>
    rw [compileText, htokens] at h
    cases hconvert : Conversion.convert registered tokens with
    | error found =>
      change (Conversion.convert registered tokens).mapError CompileFault.converted >>= _ = _ at h
      rw [hconvert] at h
      cases h
      exact .inr ⟨tokens, found, rfl, rfl, hconvert⟩
    | ok expressions =>
      -- A converted text is well-formed, so that compiling it cannot be what failed.
      obtain ⟨emission, hemission⟩ := exists_compileAll (wellFormed_of_convert htokens hconvert)
      change (Conversion.convert registered tokens).mapError CompileFault.converted >>= _ = _ at h
      rw [hconvert] at h
      change (compileAll expressions).mapError CompileFault.compiled = _ at h
      rw [hemission] at h
      cases h

end

/-- The tokens of a text are converted to the general form of the template that is read from them,
and fail to be converted for the cause that they fail to be read. Whatever they are converted to is
well formed at every depth and compiles. So an environment compiles a text to what the conversion and
the compilation in general form come to, and both fail only where the text is cut into tokens or
these are converted. -/
theorem read_templates_compile (configuration : Configuration) (text : String) :
    (∀ tokens, tokenize text = .ok tokens →
      (Conversion.convert configuration.isRegistered tokens).mapError Conversion.Fault.toError =
        (Template.ofTokens configuration.isRegistered tokens).map toExpressions) ∧
      (∀ tokens expressions, tokenize text = .ok tokens →
        Conversion.convert configuration.isRegistered tokens = .ok expressions →
          AllWellFormed expressions ∧ ∃ emission, compileAll expressions = .ok emission) ∧
      (∀ workspace environment, Workspace.configuration workspace environment = configuration →
        (∀ renderer, workspace.compile environment text = .ok renderer →
          compileText configuration.isRegistered text = .ok (renderEmission renderer.template)) ∧
        ∀ error, workspace.compile environment text = .error error →
          compileText configuration.isRegistered text = .error (.scanned error) ∨
            ∃ fault, compileText configuration.isRegistered text = .error (.converted fault) ∧
              fault.toError = error) ∧
      ∀ fault, compileText configuration.isRegistered text = .error fault →
        (∃ error, fault = .scanned error ∧ tokenize text = .error error) ∨
          ∃ tokens found, fault = .converted found ∧ tokenize text = .ok tokens ∧
            Conversion.convert configuration.isRegistered tokens = .error found := by
  refine ⟨?_, ?_, ?_, fun fault => compileText_eq_error⟩
  · intro tokens htokens
    exact (agrees_convert configuration.isRegistered htokens).mapError_eq
  · intro tokens expressions htokens hconvert
    have hwell := wellFormed_of_convert htokens hconvert
    exact ⟨hwell, exists_compileAll hwell⟩
  -- The workspace compiles a text by reading it, so that its answer is that of the reading.
  · rintro workspace environment rfl
    constructor
    · intro renderer hcompile
      obtain ⟨template, hread, hrenderer⟩ := Results.bind_eq_ok.1 hcompile
      cases hrenderer
      exact compileText_of_read hread
    · intro error hcompile
      rw [Workspace.compile] at hcompile
      cases hread : Template.read (workspace.configuration environment).isRegistered text with
      | error found =>
        rw [hread] at hcompile
        cases hcompile
        exact compileText_of_read_error hread
      | ok template =>
        rw [hread] at hcompile
        cases hcompile

/-- A condition on a member of the parent frame, with a partial for the whole data. -/
theorem read_templates_compile_if :
    let text := "\x7b\x7b #if  ../a \x7d\x7d\x7b\x7b >p  @root \x7d\x7d\x7b\x7b /if \x7d\x7d"
    let part : Node := .partialCall "p" (some ⟨[], 0, .root⟩)
    let template : Template := [.blockCall "if" [.truth (.path ⟨["a"], 1, .current⟩)] [part] none]
    let environment := (Workspace.empty.create .builtIn).2
    let workspace := (Workspace.empty.create .builtIn).1
    let registered := (workspace.configuration environment).isRegistered
    workspace.compile environment text = .ok ⟨template, environment⟩ ∧
      (∃ tokens, tokenize text = .ok tokens ∧
        Conversion.convert registered tokens = .ok (toExpressions template)) ∧
      AllWellFormed (toExpressions template) ∧
      compileText registered text = .ok (renderEmission template) := by
  intro text part template environment workspace registered
  let tags : List (List Piece) :=
    [[.word "if" (some .blockOpen), .word "../a" (some .parent)],
      [.word "p" (some .partialCall), .word "@root" (some .data)], [.word "if" (some .blockClose)]]
  have h : tokenize text = .ok _ := tokenize_print_tags tags (by decide)
  have hnodes : pairBlocks [.opener "if" (.helper [.path ⟨["a"], 1, .current⟩]) false, .node part,
      .closer "if"] = .ok [.blockCall "if" [.path ⟨["a"], 1, .current⟩] [part] none] := rfl
  have hread : Template.read registered text = .ok template := read_of_tags h rfl hnodes
  have hcompile : workspace.compile environment text = .ok ⟨template, environment⟩ := by
    rw [Workspace.compile, hread]
    rfl
  obtain ⟨hconverts, hwell, htext, -⟩ :=
    read_templates_compile (workspace.configuration environment) text
  have hconverted := hconverts _ h
  rw [← read_eq_ofTokens h, hread] at hconverted
  have hconvert : Conversion.convert registered _ = .ok (toExpressions template) :=
    Results.mapError_eq_ok.1 hconverted
  exact ⟨hcompile, ⟨_, h, hconvert⟩, (hwell _ _ h hconvert).1,
    (htext workspace environment rfl).1 _ hcompile⟩

/-- A partial after the head of a tag, where no text has one, is taken for an argument without a
value. -/
example :
    Conversion.convert (fun _ => true)
        [.tagOpen, .piece (.word "h" none), .piece (.word "p" (some .partialCall)), .tagClose] =
      .ok [.inlineCall "h" [.partialCall "p" none]] := by
  cbv

end BraceTemplate
