/-
**Runs of a machine with outputs.**

`step state label` is the machine's answer to one input: `none` when the input is not possible in
this state, otherwise the next state and what the step puts out. `run` feeds it a list of inputs and
collects the outputs.

`run_invariant` is the induction rule. The invariant may speak about all outputs so far, which is
how a property of the whole history is proved together with the property of the state that makes it
inductive. It may also rest on an assumption about the history: `Justified ok` says that every output
is acceptable after the outputs before it, which is how a party outside the machine is said to behave.
`StepsMeet` says that every step meets a condition in the state it is taken in. In
`run_history_of_meets` the invariant speaks about the inputs so far.
-/

import Mathlib.Tactic.Common

namespace NabBridge

section Run

variable {σ ℓ ω : Type}

/-- Feed a machine a list of inputs; the state after them and all outputs in order. -/
def run (step : σ → ℓ → Option (σ × List ω)) : σ → List ℓ → Option (σ × List ω)
  | state, [] => some (state, [])
  | state, label :: rest =>
      match step state label with
      | none => none
      | some (next, outputs) =>
          match run step next rest with
          | none => none
          | some (final, later) => some (final, outputs ++ later)

theorem run_cons_eq_some {step : σ → ℓ → Option (σ × List ω)} {state final : σ} {label : ℓ}
    {rest : List ℓ} {all : List ω} :
    run step state (label :: rest) = some (final, all) ↔
      ∃ next outputs later, step state label = some (next, outputs) ∧
        run step next rest = some (final, later) ∧ all = outputs ++ later := by
  rw [run]
  cases first : step state label with
  | none => simp
  | some result =>
      obtain ⟨next, outputs⟩ := result
      cases second : run step next rest with
      | none => simp [second]
      | some result' =>
          obtain ⟨final', later⟩ := result'
          simp only [second, Option.some.injEq, Prod.mk.injEq]
          constructor
          · rintro ⟨rfl, rfl⟩
            exact ⟨next, outputs, later, ⟨rfl, rfl⟩, second, rfl⟩
          · rintro ⟨_, _, later', ⟨rfl, rfl⟩, again, rfl⟩
            rw [second] at again
            obtain ⟨rfl, rfl⟩ := Prod.mk.inj (Option.some.inj again)
            exact ⟨rfl, rfl⟩

/-! ### Histories that keep an assumption -/

/-- Every output is acceptable after the outputs before it. -/
def Justified (ok : List ω → ω → Prop) : List ω → List ω → Prop
  | _, [] => True
  | past, output :: rest => ok past output ∧ Justified ok (past ++ [output]) rest

instance Justified.decidable (ok : List ω → ω → Prop) [∀ past output, Decidable (ok past output)]
    (past outputs : List ω) : Decidable (Justified ok past outputs) :=
  match outputs with
  | [] => isTrue trivial
  | output :: rest =>
      have : Decidable (Justified ok (past ++ [output]) rest) := Justified.decidable ok _ rest
      inferInstanceAs (Decidable (ok past output ∧ Justified ok (past ++ [output]) rest))

theorem justified_append {ok : List ω → ω → Prop} {past first second : List ω} :
    Justified ok past (first ++ second) ↔
      Justified ok past first ∧ Justified ok (past ++ first) second := by
  induction first generalizing past with
  | nil => simp [Justified]
  | cons output rest ih =>
      rw [List.cons_append, Justified, Justified, ih, and_assoc, List.append_assoc,
        List.singleton_append]

theorem Justified.of_mem {ok : List ω → ω → Prop} {past outputs : List ω} {output : ω}
    (justified : Justified ok past outputs) (member : output ∈ outputs) :
    ∃ between, between <+: outputs ∧ ok (past ++ between) output := by
  obtain ⟨first, second, rfl⟩ := List.append_of_mem member
  exact ⟨first, List.prefix_append _ _, (justified_append.mp justified).2.1⟩

theorem justified_true (past outputs : List ω) : Justified (fun _ _ => True) past outputs := by
  induction outputs generalizing past with
  | nil => trivial
  | cons output rest ih => exact ⟨trivial, ih _⟩

/-! ### The invariant rule -/

/-- The invariant rule from the middle of a run on. -/
theorem run_invariant_from {step : σ → ℓ → Option (σ × List ω)} (allowed : ℓ → Prop)
    (ok : List ω → ω → Prop) (invariant : List ω → σ → Prop)
    (kept : ∀ past state label next outputs, allowed label → invariant past state →
      step state label = some (next, outputs) → Justified ok past outputs →
      invariant (past ++ outputs) next)
    {past : List ω} {state final : σ} {labels : List ℓ} {all : List ω}
    (inputs : ∀ label ∈ labels, allowed label) (initially : invariant past state)
    (runs : run step state labels = some (final, all)) (justified : Justified ok past all) :
    invariant (past ++ all) final := by
  induction labels generalizing past state all with
  | nil =>
      rw [run] at runs
      obtain ⟨rfl, rfl⟩ := Prod.mk.inj (Option.some.inj runs)
      simpa using initially
  | cons label rest ih =>
      obtain ⟨next, outputs, later, first, second, rfl⟩ := run_cons_eq_some.mp runs
      obtain ⟨now, afterwards⟩ := justified_append.mp justified
      rw [← List.append_assoc]
      refine ih (fun other member => inputs other (List.mem_cons_of_mem _ member)) ?_ second afterwards
      exact kept past state label next outputs (inputs label List.mem_cons_self) initially first now

/-- **The invariant rule under an assumption on the history**: a property of the outputs so far and
the state, kept by every step on an allowed input whose outputs are justified, holds at the end of
every such run. -/
theorem run_invariant_of_justified {step : σ → ℓ → Option (σ × List ω)} (allowed : ℓ → Prop)
    (ok : List ω → ω → Prop) (invariant : List ω → σ → Prop)
    (kept : ∀ past state label next outputs, allowed label → invariant past state →
      step state label = some (next, outputs) → Justified ok past outputs →
      invariant (past ++ outputs) next)
    {state final : σ} {labels : List ℓ} {all : List ω} (inputs : ∀ label ∈ labels, allowed label)
    (initially : invariant [] state) (runs : run step state labels = some (final, all))
    (justified : Justified ok [] all) : invariant all final := by
  have result := run_invariant_from allowed ok invariant kept inputs initially runs justified
  rwa [List.nil_append] at result

/-- **The invariant rule**: a property of the outputs so far and the state, kept by every step on an
allowed input, holds at the end of every run on allowed inputs. -/
theorem run_invariant {step : σ → ℓ → Option (σ × List ω)} (allowed : ℓ → Prop)
    (invariant : List ω → σ → Prop)
    (kept : ∀ past state label next outputs, allowed label → invariant past state →
      step state label = some (next, outputs) → invariant (past ++ outputs) next)
    {state final : σ} {labels : List ℓ} {all : List ω} (inputs : ∀ label ∈ labels, allowed label)
    (initially : invariant [] state) (runs : run step state labels = some (final, all)) :
    invariant all final :=
  run_invariant_of_justified allowed (fun _ _ => True) invariant
    (fun past state label next outputs isAllowed holds step _ =>
      kept past state label next outputs isAllowed holds step)
    inputs initially runs (justified_true [] all)

/-! ### Steps that meet a condition -/

/-- Every step of the run is taken in a state in which it meets a condition. -/
def StepsMeet (step : σ → ℓ → Option (σ × List ω)) (condition : σ → ℓ → Prop) : σ → List ℓ → Prop
  | _, [] => True
  | state, label :: rest => condition state label ∧
      ∀ result ∈ step state label, StepsMeet step condition result.1 rest

instance StepsMeet.decidable (step : σ → ℓ → Option (σ × List ω)) (condition : σ → ℓ → Prop)
    [∀ state label, Decidable (condition state label)] (state : σ) (labels : List ℓ) :
    Decidable (StepsMeet step condition state labels) :=
  match labels with
  | [] => isTrue trivial
  | label :: rest =>
      have : DecidablePred fun result : σ × List ω => StepsMeet step condition result.1 rest :=
        fun result => StepsMeet.decidable step condition result.1 rest
      inferInstanceAs (Decidable (condition state label ∧
        ∀ result ∈ step state label, StepsMeet step condition result.1 rest))

/-- What holds of all inputs holds at every step. -/
theorem StepsMeet.and_inputs {step : σ → ℓ → Option (σ × List ω)} {condition : σ → ℓ → Prop}
    {allowed : ℓ → Prop} {state : σ} {labels : List ℓ} (inputs : ∀ label ∈ labels, allowed label)
    (meets : StepsMeet step condition state labels) :
    StepsMeet step (fun state label => allowed label ∧ condition state label) state labels := by
  induction labels generalizing state with
  | nil => trivial
  | cons label rest ih =>
      refine ⟨⟨inputs label List.mem_cons_self, meets.1⟩, fun result taken => ?_⟩
      exact ih (fun other member => inputs other (List.mem_cons_of_mem _ member))
        (meets.2 result taken)

/-- What follows from the condition holds at every step, too. -/
theorem StepsMeet.imp {step : σ → ℓ → Option (σ × List ω)} {condition weaker : σ → ℓ → Prop}
    (implies : ∀ state label, condition state label → weaker state label) {state : σ} {labels : List ℓ}
    (meets : StepsMeet step condition state labels) : StepsMeet step weaker state labels := by
  induction labels generalizing state with
  | nil => trivial
  | cons label rest ih => exact ⟨implies state label meets.1, fun result taken => ih (meets.2 result taken)⟩

/-- **The invariant rule for steps that meet a condition.** -/
theorem run_invariant_of_meets {step : σ → ℓ → Option (σ × List ω)} (condition : σ → ℓ → Prop)
    (invariant : List ω → σ → Prop)
    (kept : ∀ past state label next outputs, condition state label → invariant past state →
      step state label = some (next, outputs) → invariant (past ++ outputs) next)
    {past : List ω} {state final : σ} {labels : List ℓ} {all : List ω}
    (meets : StepsMeet step condition state labels) (initially : invariant past state)
    (runs : run step state labels = some (final, all)) : invariant (past ++ all) final := by
  induction labels generalizing past state all with
  | nil =>
      rw [run] at runs
      obtain ⟨rfl, rfl⟩ := Prod.mk.inj (Option.some.inj runs)
      rwa [List.append_nil]
  | cons label rest ih =>
      obtain ⟨next, outputs, later, first, second, rfl⟩ := run_cons_eq_some.mp runs
      rw [← List.append_assoc]
      exact ih (meets.2 (next, outputs) first)
        (kept past state label next outputs meets.1 initially first) second

/-- The rule for a property of the state alone. -/
theorem run_state_invariant_of_meets {step : σ → ℓ → Option (σ × List ω)} (condition : σ → ℓ → Prop)
    (invariant : σ → Prop)
    (kept : ∀ state label next outputs, condition state label → invariant state →
      step state label = some (next, outputs) → invariant next)
    {state final : σ} {labels : List ℓ} {all : List ω}
    (meets : StepsMeet step condition state labels) (initially : invariant state)
    (runs : run step state labels = some (final, all)) : invariant final :=
  @run_invariant_of_meets _ _ _ step condition (fun _ state => invariant state)
    (fun _ state label next outputs => kept state label next outputs) [] state final labels all meets
    initially runs

/-- **The rule for an exact condition.** Where each step leads into a good state exactly from a good state
and under the condition, a run ends in a good state exactly if all its steps meet the condition. -/
theorem good_iff_stepsMeet {step : σ → ℓ → Option (σ × List ω)} (condition : σ → ℓ → Prop)
    (invariant good : σ → Prop)
    (kept : ∀ state label next outputs, invariant state →
      step state label = some (next, outputs) → invariant next)
    (exact : ∀ state label next outputs, invariant state →
      step state label = some (next, outputs) → (good next ↔ good state ∧ condition state label))
    {state final : σ} {labels : List ℓ} {all : List ω} (initially : invariant state)
    (runs : run step state labels = some (final, all)) :
    good final ↔ good state ∧ StepsMeet step condition state labels := by
  induction labels generalizing state all with
  | nil =>
      rw [run] at runs
      obtain ⟨rfl, rfl⟩ := Prod.mk.inj (Option.some.inj runs)
      exact ⟨fun holds => ⟨holds, trivial⟩, fun holds => holds.1⟩
  | cons label rest ih =>
      obtain ⟨next, outputs, later, first, second, rfl⟩ := run_cons_eq_some.mp runs
      rw [ih (kept state label next outputs initially first) second,
        exact state label next outputs initially first, and_assoc]
      have taken : (∀ result ∈ step state label, StepsMeet step condition result.1 rest) ↔
          StepsMeet step condition next rest := by
        rw [first]
        exact ⟨fun all => all _ rfl, fun meets result found => Option.some.inj found ▸ meets⟩
      rw [StepsMeet, taken]

/-! ### Histories -/

theorem run_snoc_eq_some {step : σ → ℓ → Option (σ × List ω)} {start state next : σ}
    {past : List ℓ} {label : ℓ} {all outputs : List ω} (runs : run step start past = some (state, all))
    (last : step state label = some (next, outputs)) :
    run step start (past ++ [label]) = some (next, all ++ outputs) := by
  induction past generalizing start all with
  | nil =>
      rw [run] at runs
      obtain ⟨rfl, rfl⟩ := Prod.mk.inj (Option.some.inj runs)
      exact run_cons_eq_some.mpr ⟨next, outputs, [], last, rfl, (List.append_nil _).symm⟩
  | cons first rest ih =>
      obtain ⟨middle, before, later, head, tail, rfl⟩ := run_cons_eq_some.mp runs
      exact run_cons_eq_some.mpr ⟨middle, before, later ++ outputs, head, ih tail,
        List.append_assoc _ _ _⟩

/-- **The invariant rule with the inputs so far**: the invariant may say in which state an earlier input
was taken. -/
theorem run_history_of_meets {step : σ → ℓ → Option (σ × List ω)} (condition : σ → ℓ → Prop)
    {start : σ} (invariant : List ℓ → σ → Prop)
    (kept : ∀ past before state label next outputs, condition state label →
      run step start past = some (state, before) → invariant past state →
      step state label = some (next, outputs) → invariant (past ++ [label]) next)
    {labels : List ℓ} {final : σ} {all : List ω} (meets : StepsMeet step condition start labels)
    (initially : invariant [] start) (runs : run step start labels = some (final, all)) :
    invariant labels final := by
  suffices from_ : ∀ past before state, run step start past = some (state, before) →
      invariant past state → ∀ rest later, StepsMeet step condition state rest →
      run step state rest = some (final, later) → invariant (past ++ rest) final by
    exact from_ [] [] start rfl initially labels all meets runs
  intro past before state reached holds rest
  induction rest generalizing past before state with
  | nil =>
      intro later _ runs
      rw [run] at runs
      obtain ⟨rfl, _⟩ := Prod.mk.inj (Option.some.inj runs)
      rwa [List.append_nil]
  | cons label rest ih =>
      intro later meets runs
      obtain ⟨next, outputs, others, first, second, rfl⟩ := run_cons_eq_some.mp runs
      rw [List.append_cons]
      exact ih _ _ next (run_snoc_eq_some reached first)
        (kept past before state label next outputs meets.1 reached holds first) others
        (meets.2 (next, outputs) first) second

end Run

end NabBridge
