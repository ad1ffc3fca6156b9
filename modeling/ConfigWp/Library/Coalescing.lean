import Mathlib.Data.List.Basic

/-! A worker that takes requests in batches and saves at most once a batch. Processing a
request says whether it changed anything; a batch in which something changed ends with a
save of the state then. Neither the state nor what was saved last shows how the requests
fell into batches. -/

set_option autoImplicit false

namespace Coalescing

variable {σ ρ : Type*}

/-- The state of the worker and the state it saved last. -/
structure Memory (σ : Type*) where
  current : σ
  saved : Option σ

variable (process : σ → ρ → Bool × σ)

/-- The loop over a batch, with its flag. -/
def drainFrom (dirty : Bool) (state : σ) : List ρ → Bool × σ
  | [] => (dirty, state)
  | request :: requests =>
      drainFrom (dirty || (process state request).1) (process state request).2 requests

def drain (state : σ) (batch : List ρ) : Bool × σ := drainFrom process false state batch

@[simp] theorem drain_nil (state : σ) : drain process state [] = (false, state) := rfl

theorem drainFrom_eq (dirty : Bool) (state : σ) (batch : List ρ) :
    drainFrom process dirty state batch =
      (dirty || (drain process state batch).1, (drain process state batch).2) := by
  rw [drain]
  induction batch generalizing dirty state with
  | nil => simp [drainFrom]
  | cons request batch ih =>
      rw [drainFrom, drainFrom, ih, ih (false || (process state request).1), Bool.false_or,
        Bool.or_assoc]

theorem drain_cons (state : σ) (request : ρ) (batch : List ρ) :
    drain process state (request :: batch) =
      ((process state request).1 || (drain process (process state request).2 batch).1,
        (drain process (process state request).2 batch).2) := by
  rw [drain, drainFrom, drainFrom_eq, Bool.false_or]

theorem drain_append (state : σ) (left right : List ρ) :
    drain process state (left ++ right) =
      ((drain process state left).1 || (drain process (drain process state left).2 right).1,
        (drain process (drain process state left).2 right).2) := by
  induction left generalizing state with
  | nil => simp
  | cons request left ih =>
      rw [List.cons_append, drain_cons, drain_cons, ih, Bool.or_assoc]

/-- The flag is set by a request that changes something in the state it meets. -/
theorem drain_dirty_iff {state : σ} {batch : List ρ} :
    (drain process state batch).1 = true ↔
      ∃ earlier request later, batch = earlier ++ request :: later ∧
        (process (drain process state earlier).2 request).1 = true := by
  induction batch generalizing state with
  | nil => simp
  | cons request batch ih =>
      rw [drain_cons, Bool.or_eq_true, ih]
      constructor
      · rintro (now | ⟨earlier, other, later, rfl, changed⟩)
        · exact ⟨[], request, batch, rfl, now⟩
        · refine ⟨request :: earlier, other, later, rfl, ?_⟩
          rw [drain_cons]
          exact changed
      · rintro ⟨earlier, other, later, split, changed⟩
        cases earlier with
        | nil =>
            obtain ⟨rfl, rfl⟩ := List.cons.inj split
            exact .inl changed
        | cons first earlier =>
            obtain ⟨rfl, rfl⟩ := List.cons.inj split
            rw [drain_cons] at changed
            exact .inr ⟨earlier, other, later, rfl, changed⟩

/-- One batch, and the save behind it. -/
def turn (memory : Memory σ) (batch : List ρ) : Memory σ where
  current := (drain process memory.current batch).2
  saved :=
    if (drain process memory.current batch).1 then some (drain process memory.current batch).2
    else memory.saved

/-- A request that reports no change makes none. -/
def Honest : Prop :=
  ∀ state request, (process state request).1 = false → (process state request).2 = state

variable {process}

theorem drain_clean (honest : Honest process) {state : σ} {batch : List ρ}
    (clean : (drain process state batch).1 = false) : (drain process state batch).2 = state := by
  induction batch generalizing state with
  | nil => rfl
  | cons request batch ih =>
      rw [drain_cons] at clean ⊢
      obtain ⟨first, rest⟩ := Bool.or_eq_false_iff.mp clean
      exact (ih rest).trans (honest state request first)

/-- Two batches leave what one batch of all their requests leaves. -/
theorem turn_append (honest : Honest process) (memory : Memory σ) (left right : List ρ) :
    turn process (turn process memory left) right = turn process memory (left ++ right) := by
  rw [turn, turn, turn, drain_append]
  dsimp only
  cases late : (drain process (drain process memory.current left).2 right).1 with
  | true =>
      rw [Bool.or_true]
      rfl
  | false =>
      rw [Bool.or_false, drain_clean honest late]
      rfl

/-- A run over batches is one turn over all their requests. -/
theorem run_eq_turn (honest : Honest process) (memory : Memory σ) (batches : List (List ρ)) :
    batches.foldl (turn process) memory = turn process memory batches.flatten := by
  induction batches generalizing memory with
  | nil => rfl
  | cons batch batches ih =>
      rw [List.foldl_cons, ih, turn_append honest, List.flatten_cons]

end Coalescing
