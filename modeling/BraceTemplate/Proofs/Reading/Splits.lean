import BraceTemplate.Proofs.Results

/-!
# Passes that read their input stretch by stretch

A pass splits at a stretch of its input if it makes the same of the stretch whatever comes after it.
`reads_comp` puts such passes in a row, and `toOption_flatMap_of_reads` reads an input that is put
together from stretches.
-/

namespace BraceTemplate

variable {ε α β γ σ : Type}

/-- A pass makes the given result of a stretch, and goes on with what comes after it. -/
def Splits (pass : List α → Except ε (List β)) (stretch : List α) (result : Except ε (List β)) :
    Prop :=
  ∀ rest, pass (stretch ++ rest) = result >>= fun first => (pass rest).map (first ++ ·)

/-- A pass reads a stretch if it makes the given result of it and of nothing else, up to which error
it ends with. -/
def Reads (pass : List α → Except ε (List β)) (stretch : List α) (result : Option (List β)) :
    Prop :=
  ∀ rest, (pass (stretch ++ rest)).toOption =
    result.bind fun first => (pass rest).toOption.map (first ++ ·)

theorem toOption_map (f : α → β) (result : Except ε α) :
    (result.map f).toOption = result.toOption.map f := by
  cases result <;> rfl

theorem toOption_bind (result : Except ε α) (next : α → Except ε β) :
    (result >>= next).toOption = result.toOption.bind fun a => (next a).toOption := by
  cases result <;> rfl

theorem Splits.reads {pass : List α → Except ε (List β)} {stretch : List α}
    {result : Except ε (List β)} (h : Splits pass stretch result) :
    Reads pass stretch result.toOption := by
  intro rest
  rw [h rest, toOption_bind]
  apply congrArg result.toOption.bind
  funext first
  rw [toOption_map]

/-- Every pass reads nothing from an empty stretch. -/
theorem reads_nil (pass : List α → Except ε (List β)) : Reads pass [] (some []) := by
  intro rest
  rw [List.nil_append, Option.bind_some]
  cases (pass rest).toOption with
  | none => rfl
  | some later => rfl

/-! ## Passes in a row -/

/-- The second pass reads what the first one has made of a stretch. -/
theorem reads_comp {first : List α → Except ε (List β)} {second : List β → Except ε (List γ)}
    {stretch : List α} {between : List β} {result : Option (List γ)}
    (hfirst : Reads first stretch (some between)) (hsecond : Reads second between result) :
    Reads (fun input => first input >>= second) stretch result := by
  intro rest
  rw [toOption_bind, hfirst rest, Option.bind_some, toOption_bind]
  -- If the first pass fails later on, nothing is read, whatever becomes of this stretch.
  cases (first rest).toOption with
  | none =>
    rw [Option.map_none, Option.bind_none]
    cases result <;> rfl
  | some later => exact hsecond later

/-- The second pass reads what a pass that cannot fail has made of a stretch. -/
theorem reads_after {first : List α → List β} {second : List β → Except ε (List γ)}
    {stretch : List α} {between : List β} {result : Option (List γ)}
    (hfirst : ∀ rest, first (stretch ++ rest) = between ++ first rest)
    (hsecond : Reads second between result) :
    Reads (fun input => second (first input)) stretch result := by
  intro rest
  show (second (first (stretch ++ rest))).toOption = _
  rw [hfirst rest]
  exact hsecond (first rest)

/-- What the first pass does not read is not read at all. -/
theorem reads_comp_none {first : List α → Except ε (List β)} {second : List β → Except ε (List γ)}
    {stretch : List α} (hfirst : Reads first stretch none) :
    Reads (fun input => first input >>= second) stretch none := by
  intro rest
  rw [toOption_bind, hfirst rest]
  rfl

/-! ## Stretches in a row -/

/-- A pass over stretches in a row gives what it makes of each of them, one after the other. -/
theorem toOption_flatMap_of_reads {pass : List α → Except ε (List β)} {stretch : σ → List α}
    {read : σ → Option (List β)} (hnil : pass [] = .ok []) {inputs : List σ}
    (h : ∀ input ∈ inputs, Reads pass (stretch input) (read input)) :
    (pass (inputs.flatMap stretch)).toOption = (inputs.mapM read).map List.flatten := by
  induction inputs with
  | nil =>
    rw [List.flatMap_nil, hnil]
    rfl
  | cons input inputs ih =>
    have hrest := ih fun other hmem => h other (List.mem_cons_of_mem _ hmem)
    rw [List.flatMap_cons, h input List.mem_cons_self, hrest, List.mapM_cons]
    cases read input with
    | none => rfl
    | some first =>
      cases hmapM : inputs.mapM read with
      | none => rfl
      | some later => rfl

end BraceTemplate
