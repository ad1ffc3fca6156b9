import Mathlib.Data.List.Basic
import Mathlib.Logic.Relation

/-! Writing behind a log. Stores and commits are logged as they happen; a writer
captures the log at some point and makes that prefix durable later, while the log
grows on. A commit leaves work pending until a capture that it precedes, so an idle
writer with nothing pending has made every commit durable. -/

set_option autoImplicit false

namespace WriteBehind

inductive Entry (ε τ : Type*) where
  | store (entry : ε)
  | commit (task : τ)
  deriving DecidableEq

variable {ε τ : Type*}

/-- The log, whether work is pending, the length of the prefix being written, and the
length of the durable prefix. -/
structure State (ε τ : Type*) where
  log : List (Entry ε τ)
  pending : Bool
  capture : Option Nat
  durable : Nat

def State.init : State ε τ := ⟨[], false, none, 0⟩

inductive Step : State ε τ → State ε τ → Prop where
  | idle (state : State ε τ) : Step state state
  | mark (state : State ε τ) : Step state { state with pending := true }
  | store (state : State ε τ) (entry : ε) :
      Step state { state with log := state.log ++ [.store entry] }
  | commit (state : State ε τ) (task : τ) :
      Step state { state with log := state.log ++ [.commit task], pending := true }
  | capture (state : State ε τ) (free : state.capture = none) (pending : Bool) :
      Step state { state with pending, capture := some state.log.length }
  | flush (state : State ε τ) (length : Nat) (captured : state.capture = some length) :
      Step state { state with capture := none, durable := length }

/-- Every commit is durable, in the capture, or followed by pending work. -/
structure Covers (state : State ε τ) : Prop where
  commits : ∀ i task, state.log[i]? = some (.commit task) →
    i < state.durable ∨ (∃ length, state.capture = some length ∧ i < length) ∨
      state.pending = true
  captured : ∀ length, state.capture = some length →
    state.durable ≤ length ∧ length ≤ state.log.length
  durable : state.durable ≤ state.log.length

theorem covers_init : Covers (.init : State ε τ) where
  commits i task found := by cases found
  captured length found := by cases found
  durable := Nat.le_refl _

private theorem logged_snoc {log : List (Entry ε τ)} {entry : Entry ε τ} {i : Nat} {task : τ}
    (found : (log ++ [entry])[i]? = some (.commit task)) :
    log[i]? = some (.commit task) ∨ entry = .commit task := by
  rcases Nat.lt_trichotomy i log.length with before | here | after
  · rw [List.getElem?_append_left before] at found
    exact .inl found
  · subst here
    rw [List.getElem?_concat_length] at found
    exact .inr (Option.some.inj found)
  · rw [List.getElem?_eq_none (by rw [List.length_append, List.length_singleton]; omega)] at found
    cases found

/-- What has been captured and what is durable stay within a log that grows. -/
private theorem Covers.grown {state : State ε τ} (covers : Covers state) (entry : Entry ε τ) :
    (∀ length, state.capture = some length →
      state.durable ≤ length ∧ length ≤ (state.log ++ [entry]).length) ∧
      state.durable ≤ (state.log ++ [entry]).length := by
  rw [List.length_append]
  constructor
  · intro length taken
    obtain ⟨low, high⟩ := covers.captured length taken
    exact ⟨low, Nat.le_trans high (Nat.le_add_right _ _)⟩
  · exact Nat.le_trans covers.durable (Nat.le_add_right _ _)

theorem Covers.step {state next : State ε τ} (covers : Covers state) (step : Step state next) :
    Covers next := by
  have grown := covers.grown
  obtain ⟨commits, captured, durable⟩ := covers
  cases step with
  | idle => exact ⟨commits, captured, durable⟩
  | mark => exact ⟨fun _ _ _ => .inr (.inr rfl), captured, durable⟩
  | store entry =>
      refine ⟨?_, (grown _).1, (grown _).2⟩
      intro i task found
      rcases logged_snoc found with old | new
      · exact commits i task old
      · cases new
  | commit task => exact ⟨fun _ _ _ => .inr (.inr rfl), (grown _).1, (grown _).2⟩
  | capture free pending =>
      refine ⟨?_, ?_, durable⟩
      · intro i task found
        exact .inr (.inl ⟨state.log.length, rfl, (List.getElem?_eq_some_iff.mp found).1⟩)
      · intro length taken
        obtain rfl := Option.some.inj taken
        exact ⟨durable, Nat.le_refl _⟩
  | flush length taken =>
      obtain ⟨low, high⟩ := captured length taken
      refine ⟨?_, ?_, high⟩
      · intro i task found
        rcases commits i task found with done | ⟨other, same, inside⟩ | pending
        · exact .inl (Nat.lt_of_lt_of_le done low)
        · rw [taken] at same
          obtain rfl := Option.some.inj same
          exact .inl inside
        · exact .inr (.inr pending)
      · intro other taken
        cases taken

theorem Covers.run {state next : State ε τ} (covers : Covers state)
    (steps : Relation.ReflTransGen Step state next) : Covers next := by
  induction steps with
  | refl => exact covers
  | tail _ step ih => exact ih.step step

/-- The log grows at its end, and what is durable stays durable. -/
theorem Covers.step_grows {state next : State ε τ} (covers : Covers state)
    (step : Step state next) : state.durable ≤ next.durable ∧ state.log <+: next.log := by
  cases step with
  | store entry => exact ⟨Nat.le_refl _, List.prefix_append _ _⟩
  | commit task => exact ⟨Nat.le_refl _, List.prefix_append _ _⟩
  | flush length taken => exact ⟨(covers.captured length taken).1, List.prefix_rfl⟩
  | _ => exact ⟨Nat.le_refl _, List.prefix_rfl⟩

theorem Covers.run_grows {state next : State ε τ} (covers : Covers state)
    (steps : Relation.ReflTransGen Step state next) :
    state.durable ≤ next.durable ∧ state.log <+: next.log := by
  induction steps with
  | refl => exact ⟨Nat.le_refl _, List.prefix_rfl⟩
  | tail earlier step ih =>
      obtain ⟨more, longer⟩ := (covers.run earlier).step_grows step
      exact ⟨Nat.le_trans ih.1 more, ih.2.trans longer⟩

/-- When nothing is being written and nothing is pending, every commit is durable. -/
theorem Covers.committed {state : State ε τ} (covers : Covers state)
    (free : state.capture = none) (clean : state.pending = false) {i : Nat} {task : τ}
    (found : state.log[i]? = some (.commit task)) : i < state.durable := by
  rcases covers.commits i task found with done | ⟨length, taken, -⟩ | pending
  · exact done
  · rw [free] at taken
    cases taken
  · rw [clean] at pending
    cases pending

end WriteBehind
