import Mathlib.Data.List.Basic

/-! Programs that drive a device. A program starts in a state of the device and
leaves a value, a state and the list of the accesses it made. `Observes` is the
judgement for programs that only look: what they return, that the device is as
it was, and what every access satisfies. -/

set_option autoImplicit false

namespace Traced

universe u

structure Outcome (σ ε α : Type u) where
  value : α
  state : σ
  trace : List ε

structure Program (σ ε α : Type u) where
  run : σ → Outcome σ ε α

variable {σ ε α β : Type u} {ι : Type u}

instance programMonad : Monad (Program σ ε) where
  pure value := ⟨fun state => ⟨value, state, []⟩⟩
  bind program next := ⟨fun state =>
    let first := program.run state
    let rest := (next first.value).run first.state
    ⟨rest.value, rest.state, first.trace ++ rest.trace⟩⟩

theorem run_pure (value : α) (state : σ) :
    (pure value : Program σ ε α).run state = ⟨value, state, []⟩ := rfl

theorem run_bind (program : Program σ ε α) (next : α → Program σ ε β) (state : σ) :
    (program >>= next).run state =
      ⟨((next (program.run state).value).run (program.run state).state).value,
        ((next (program.run state).value).run (program.run state).state).state,
        (program.run state).trace ++
          ((next (program.run state).value).run (program.run state).state).trace⟩ := rfl

/-- From `state` the program returns `value`, leaves the device alone and makes
accesses that are all `allowed`. -/
structure Observes (allowed : ε → Prop) (state : σ) (program : Program σ ε α) (value : α) :
    Prop where
  value_eq : (program.run state).value = value
  state_eq : (program.run state).state = state
  within : ∀ access ∈ (program.run state).trace, allowed access

variable {allowed : ε → Prop} {state : σ}

theorem observes_pure (value : α) : Observes allowed state (pure value) value :=
  ⟨rfl, rfl, by simp [run_pure]⟩

theorem Observes.bind {program : Program σ ε α} {next : α → Program σ ε β} {value : α} {last : β}
    (first : Observes allowed state program value)
    (rest : Observes allowed state (next value) last) :
    Observes allowed state (program >>= next) last := by
  obtain ⟨returned, kept, before⟩ := first
  obtain ⟨returnedLast, keptLast, after⟩ := rest
  rw [← returned] at returnedLast keptLast after
  constructor
  · rw [run_bind, kept, returnedLast]
  · rw [run_bind, kept, keptLast]
  · intro access made
    rw [run_bind, kept] at made
    rcases List.mem_append.mp made with early | late
    · exact before access early
    · exact after access late

theorem observes_foldlM {step : β → ι → Program σ ε β} {next : β → ι → β}
    (each : ∀ acc item, Observes allowed state (step acc item) (next acc item)) (items : List ι)
    (start : β) : Observes allowed state (items.foldlM step start) (items.foldl next start) := by
  induction items generalizing start with
  | nil => exact observes_pure start
  | cons item items ih => exact (each start item).bind (ih (next start item))

/-- What a loop keeps of its locals and of the accesses made so far. -/
theorem foldlM_invariant (step : β → ι → Program σ ε β) (state : σ)
    (invariant : List ε → β → Prop)
    (observes : ∀ acc item, ((step acc item).run state).state = state)
    (preserved : ∀ seen acc item, invariant seen acc →
      invariant (seen ++ ((step acc item).run state).trace) ((step acc item).run state).value)
    (items : List ι) (seen : List ε) (start : β) (holds : invariant seen start) :
    invariant (seen ++ ((items.foldlM step start).run state).trace)
      ((items.foldlM step start).run state).value := by
  induction items generalizing seen start with
  | nil =>
      rw [List.foldlM_nil, run_pure, List.append_nil]
      exact holds
  | cons item items ih =>
      rw [List.foldlM_cons, run_bind, observes, ← List.append_assoc]
      exact ih _ _ (preserved seen start item holds)

end Traced
