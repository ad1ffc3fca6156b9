import Mathlib.Data.List.Basic

/-! Runs of a deterministic machine over a list of inputs, with the induction
principles that lift a property of one step to every state a run reaches. -/

set_option autoImplicit false

namespace Machine

variable {σ τ ι : Type*}

def run (step : σ → ι → σ) (start : σ) (inputs : List ι) : σ := inputs.foldl step start

variable (step : σ → ι → σ)

@[simp] theorem run_nil (start : σ) : run step start [] = start := rfl

@[simp] theorem run_cons (start : σ) (input : ι) (inputs : List ι) :
    run step start (input :: inputs) = run step (step start input) inputs := rfl

theorem run_append (start : σ) (inputs more : List ι) :
    run step start (inputs ++ more) = run step (run step start inputs) more :=
  List.foldl_append

/-- A property that the allowed steps keep holds in every state of a run of them. -/
theorem run_invariant {invariant : σ → Prop} {allowed : ι → Prop} {start : σ}
    (holds : invariant start)
    (preserved : ∀ state input, allowed input → invariant state → invariant (step state input))
    {inputs : List ι} (all : ∀ input ∈ inputs, allowed input) :
    invariant (run step start inputs) := by
  induction inputs generalizing start with
  | nil => exact holds
  | cons input inputs ih =>
      obtain ⟨first, rest⟩ := List.forall_mem_cons.mp all
      exact ih (preserved start input first holds) rest

/-- A rank that some steps lower and no step raises is used up by enough of them. -/
theorem run_exhausts {rank : σ → Nat} {allowed : ι → Prop} {works : ι → Bool}
    (kept : ∀ state input, allowed input → rank (step state input) ≤ rank state)
    (lowered : ∀ state input, works input = true → rank (step state input) ≤ rank state - 1)
    {start : σ} {inputs : List ι} (all : ∀ input ∈ inputs, allowed input)
    (enough : rank start ≤ inputs.countP works) : rank (run step start inputs) = 0 := by
  induction inputs generalizing start with
  | nil => exact Nat.le_zero.mp enough
  | cons input inputs ih =>
      obtain ⟨first, rest⟩ := List.forall_mem_cons.mp all
      refine ih rest ?_
      by_cases working : works input = true
      · rw [List.countP_cons_of_pos working] at enough
        have less := lowered start input working
        omega
      · rw [List.countP_cons_of_neg working] at enough
        exact Nat.le_trans (kept start input first) enough

/-- Two machines that stay related step by step stay related along a run. The
step obligation may use which inputs the run has consumed so far. -/
theorem run_simulation {abstract : τ → ι → τ} (related : List ι → σ → τ → Prop)
    {start : σ} {model : τ} (holds : related [] start model) {inputs : List ι}
    (preserved : ∀ seen input later state model, inputs = seen ++ input :: later →
      related seen state model →
      related (seen ++ [input]) (step state input) (abstract model input)) :
    related inputs (run step start inputs) (run abstract model inputs) := by
  have loop : ∀ later seen state model, inputs = seen ++ later → related seen state model →
      related inputs (run step state later) (run abstract model later) := by
    intro later
    induction later with
    | nil =>
        intro seen state model split valid
        simpa [split] using valid
    | cons input later ih =>
        intro seen state model split valid
        exact ih (seen ++ [input]) _ _ (by simp [split])
          (preserved seen input later state model split valid)
  exact loop inputs [] start model rfl holds

end Machine
