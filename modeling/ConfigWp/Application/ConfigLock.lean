import ConfigWp.Library.Machine
import Mathlib.Logic.Function.Basic

/-! The mutex of `config_lock_freertos.c` and the owner it keeps beside it. The owner and
its flag are plain variables, written while the mutex is held and read by any task that
asks whether it holds the mutex, one access at a time. -/

set_option autoImplicit false

namespace ConfigWp

section Lock

variable {τ : Type*}

/-- Where a task stands: between two calls, holding the mutex or not, or inside a call
behind its first access. -/
inductive LockPoint where
  | between (holding : Bool)
  | taken
  | owned
  | cleared
  | asking (holding : Bool)
  deriving DecidableEq

inductive LockCall where
  | take
  | give
  | isHeldByCurrentThread
  deriving DecidableEq

/-- What `config_lock_is_held_by_current_thread` returned to a task. -/
structure LockAnswer (τ : Type*) where
  task : τ
  holding : Bool
  answer : Bool

/-- `s_mutex` with its holder, `s_owner` and `s_has_owner`, the tasks, and the answers. -/
structure ConfigLock (τ : Type*) where
  mutex : Option τ
  owner : Option τ
  hasOwner : Bool
  point : τ → LockPoint
  answers : List (LockAnswer τ)

namespace ConfigLock

/-- `config_lock_create`. -/
def create : ConfigLock τ where
  mutex := none
  owner := none
  hasOwner := false
  point _ := .between false
  answers := []

variable [DecidableEq τ]

def move (lock : ConfigLock τ) (task : τ) (point : LockPoint) : ConfigLock τ :=
  { lock with point := Function.update lock.point task point }

def answer (lock : ConfigLock τ) (task : τ) (holding answer : Bool) : ConfigLock τ :=
  { lock with
    point := Function.update lock.point task (.between holding)
    answers := ⟨task, holding, answer⟩ :: lock.answers }

/-- The next access of a task; the call counts between two calls only. A task that takes
the mutex while another has it waits, and nobody gives a mutex that it does not hold. -/
def step (lock : ConfigLock τ) (input : τ × LockCall) : ConfigLock τ :=
  let task := input.1
  match lock.point task with
  | .between holding =>
      match input.2 with
      | .take =>
          if lock.mutex = none then { lock.move task .taken with mutex := some task } else lock
      | .give => if holding then { lock.move task .cleared with hasOwner := false } else lock
      | .isHeldByCurrentThread =>
          if lock.hasOwner then lock.move task (.asking holding) else lock.answer task holding false
  | .taken => { lock.move task .owned with owner := some task }
  | .owned => { lock.move task (.between true) with hasOwner := true }
  | .cleared => { lock.move task (.between false) with mutex := none }
  | .asking holding => lock.answer task holding (lock.owner = some task)

end ConfigLock

/-- A task that has the mutex. -/
def LockPoint.has : LockPoint → Bool
  | .between holding => holding
  | .asking holding => holding
  | _ => true

/-- A task that has written its name. -/
def LockPoint.named : LockPoint → Bool
  | .between holding => holding
  | .asking holding => holding
  | .owned => true
  | _ => false

/-- A task that has set the flag as well. -/
def LockPoint.flagged : LockPoint → Bool
  | .between holding => holding
  | .asking holding => holding
  | _ => false

/-- The flag is set for a holder that has written its name, so a task that reads it set
without being the holder finds another name. -/
structure LockInvariant (lock : ConfigLock τ) : Prop where
  others : ∀ task, lock.mutex ≠ some task → (lock.point task).has = false
  holder : ∀ task, lock.mutex = some task →
    (lock.point task).has = true ∧ lock.hasOwner = (lock.point task).flagged ∧
      ((lock.point task).named = true → lock.owner = some task)
  free : lock.mutex = none → lock.hasOwner = false
  asking : ∀ task, lock.point task = .asking false → lock.owner ≠ some task
  answers : ∀ entry ∈ lock.answers, entry.answer = entry.holding

variable {lock : ConfigLock τ} {task : τ}

theorem lockInvariant_create : LockInvariant (ConfigLock.create : ConfigLock τ) where
  others _ _ := rfl
  holder _ held := by cases held
  free _ := rfl
  asking _ here := by cases here
  answers _ listed := by cases listed

theorem LockInvariant.mutex_of_has (invariant : LockInvariant lock)
    (has : (lock.point task).has = true) : lock.mutex = some task := by
  by_contra outside
  rw [invariant.others task outside] at has
  cases has

theorem LockPoint.named_of_flagged {point : LockPoint} (flagged : point.flagged = true) :
    point.named = true := by
  cases point <;> first | exact flagged | cases flagged

/-- A task that reads the flag set while another one has the mutex finds that one's name. -/
theorem LockInvariant.owner_ne (invariant : LockInvariant lock) (flag : lock.hasOwner = true)
    (outside : lock.mutex ≠ some task) : lock.owner ≠ some task := by
  cases held : lock.mutex with
  | none =>
      rw [invariant.free held] at flag
      cases flag
  | some holder =>
      obtain ⟨-, flagged, named⟩ := invariant.holder holder held
      rw [named (LockPoint.named_of_flagged (flagged.symm.trans flag)), ← held]
      exact outside

variable [DecidableEq τ]

/-- A step that leaves the task with the mutex. -/
theorem LockInvariant.holding (invariant : LockInvariant lock)
    (alone : ∀ other, other ≠ task → lock.mutex ≠ some other) {point : LockPoint}
    {mutex owner : Option τ} (held : mutex = some task) {hasOwner : Bool}
    {answers : List (LockAnswer τ)}
    (has : point.has = true) (flagged : hasOwner = point.flagged)
    (named : point.named = true → owner = some task) (kept : owner = lock.owner ∨ owner = some task)
    (right : ∀ entry ∈ answers, entry.answer = entry.holding) :
    LockInvariant
      { mutex, owner, hasOwner, answers
        point := Function.update lock.point task point } where
  others other outside := by
    have apart : other ≠ task := fun same => outside (same ▸ held)
    dsimp only
    rw [Function.update_of_ne apart]
    exact invariant.others other (alone other apart)
  holder other has' := by
    obtain rfl := Option.some.inj (has'.symm.trans held)
    dsimp only
    rw [Function.update_self]
    exact ⟨has, flagged, named⟩
  free none := by
    dsimp only at none
    rw [held] at none
    cases none
  asking other here := by
    by_cases same : other = task
    · subst same
      dsimp only at here
      rw [Function.update_self] at here
      rw [here] at has
      cases has
    · dsimp only at here ⊢
      rw [Function.update_of_ne same] at here
      rcases kept with kept | kept
      · rw [kept]
        exact invariant.asking other here
      · rw [kept]
        exact fun clash => same (Option.some.inj clash).symm
  answers := right

/-- A step of a task without the mutex. -/
theorem LockInvariant.without (invariant : LockInvariant lock) (outside : lock.mutex ≠ some task)
    {point : LockPoint} {answers : List (LockAnswer τ)} (has : point.has = false)
    (asks : point = .asking false → lock.owner ≠ some task)
    (right : ∀ entry ∈ answers, entry.answer = entry.holding) :
    LockInvariant { lock with point := Function.update lock.point task point, answers } where
  others other free := by
    by_cases same : other = task
    · subst same
      dsimp only
      rw [Function.update_self]
      exact has
    · dsimp only
      rw [Function.update_of_ne same]
      exact invariant.others other free
  holder other held := by
    have apart : other ≠ task := fun same => outside (same ▸ held)
    dsimp only
    rw [Function.update_of_ne apart]
    exact invariant.holder other held
  free := invariant.free
  asking other here := by
    by_cases same : other = task
    · subst same
      dsimp only at here
      rw [Function.update_self] at here
      exact asks here
    · dsimp only at here
      rw [Function.update_of_ne same] at here
      exact invariant.asking other here
  answers := right

/-- `xSemaphoreGive`, behind the access that cleared the flag. -/
theorem LockInvariant.given (invariant : LockInvariant lock) (here : lock.point task = .cleared) :
    LockInvariant { lock.move task (.between false) with mutex := none } := by
  have held : lock.mutex = some task := invariant.mutex_of_has (by rw [here]; rfl)
  have cleared := (invariant.holder task held).2.1
  rw [here] at cleared
  constructor
  · intro other _
    by_cases same : other = task
    · subst same
      simp [ConfigLock.move, LockPoint.has]
    · simp only [ConfigLock.move, Function.update_of_ne same]
      refine invariant.others other fun clash => same ?_
      exact Option.some.inj (clash.symm.trans held)
  · intro other none
    cases none
  · exact fun _ => cleared
  · intro other asks
    by_cases same : other = task
    · subst same
      simp [ConfigLock.move] at asks
    · simp only [ConfigLock.move, Function.update_of_ne same] at asks
      exact invariant.asking other asks
  · exact invariant.answers

theorem LockInvariant.step (invariant : LockInvariant lock) (input : τ × LockCall) :
    LockInvariant (lock.step input) := by
  obtain ⟨task, call⟩ := input
  -- a task that has the mutex has it alone
  have alone : (lock.point task).has = true →
      lock.mutex = some task ∧ ∀ other, other ≠ task → lock.mutex ≠ some other := by
    intro has
    have held := invariant.mutex_of_has has
    exact ⟨held, fun other apart clash => apart (Option.some.inj (clash.symm.trans held))⟩
  have answered : ∀ holding, ∀ entry ∈ (⟨task, holding, holding⟩ : LockAnswer τ) :: lock.answers,
      entry.answer = entry.holding := by
    intro holding entry listed
    rcases List.mem_cons.mp listed with rfl | old
    · rfl
    · exact invariant.answers entry old
  unfold ConfigLock.step
  dsimp only
  cases here : lock.point task with
  | between holding =>
      rw [here] at alone
      cases call with
      | take =>
          dsimp only
          split_ifs with free
          · exact invariant.holding (fun other _ held => by rw [free] at held; cases held) rfl rfl
              (invariant.free free) (fun named => by cases named) (.inl rfl) invariant.answers
          · exact invariant
      | give =>
          cases holding with
          | false => exact invariant
          | true =>
              obtain ⟨held, only⟩ := alone rfl
              exact invariant.holding only held rfl rfl (fun named => by cases named) (.inl rfl)
                invariant.answers
      | isHeldByCurrentThread =>
          cases holding with
          | false =>
              have outside : lock.mutex ≠ some task := fun held => by
                have has := (invariant.holder task held).1
                rw [here] at has
                cases has
              dsimp only
              split_ifs with flag
              · exact invariant.without outside rfl (fun _ => invariant.owner_ne flag outside)
                  invariant.answers
              · exact invariant.without outside rfl (fun asks => by cases asks) (answered false)
          | true =>
              obtain ⟨held, only⟩ := alone rfl
              obtain ⟨-, flag, named⟩ := invariant.holder task held
              rw [here] at flag named
              dsimp only
              rw [if_pos (show lock.hasOwner = true from flag)]
              exact invariant.holding only held rfl flag named (.inl rfl) invariant.answers
  | taken =>
      rw [here] at alone
      obtain ⟨held, only⟩ := alone rfl
      have flag := (invariant.holder task held).2.1
      rw [here] at flag
      exact invariant.holding only held rfl flag (fun _ => rfl) (.inr rfl) invariant.answers
  | owned =>
      rw [here] at alone
      obtain ⟨held, only⟩ := alone rfl
      have named := (invariant.holder task held).2.2
      rw [here] at named
      exact invariant.holding only held rfl rfl named (.inl rfl) invariant.answers
  | cleared => exact invariant.given here
  | asking holding =>
      rw [here] at alone
      cases holding with
      | false =>
          have outside : lock.mutex ≠ some task := fun held => by
            have has := (invariant.holder task held).1
            rw [here] at has
            cases has
          dsimp only
          rw [decide_eq_false (invariant.asking task here)]
          exact invariant.without outside rfl (fun asks => by cases asks) (answered false)
      | true =>
          obtain ⟨held, only⟩ := alone rfl
          obtain ⟨-, flag, named⟩ := invariant.holder task held
          rw [here] at flag named
          dsimp only
          rw [decide_eq_true (named rfl)]
          exact invariant.holding only held rfl flag named (.inl rfl) (answered true)

/-- In every order of the accesses of any number of tasks, whoever asks is told whether it
holds the mutex, and never more than one task does. -/
theorem isHeldByCurrentThread_exact (inputs : List (τ × LockCall)) :
    (∀ entry ∈ (Machine.run ConfigLock.step .create inputs).answers,
      entry.answer = entry.holding) ∧
    ∀ task other, ((Machine.run ConfigLock.step .create inputs).point task).has = true →
      ((Machine.run ConfigLock.step .create inputs).point other).has = true → task = other := by
  have preserved : ∀ (lock : ConfigLock τ) input, True → LockInvariant lock →
      LockInvariant (lock.step input) := fun _ input _ invariant => invariant.step input
  have invariant := @Machine.run_invariant _ _ ConfigLock.step _ (fun _ => True) _
    lockInvariant_create preserved inputs fun _ _ => trivial
  refine ⟨invariant.answers, fun task other here there => ?_⟩
  have held := invariant.mutex_of_has here
  exact Option.some.inj (held.symm.trans (invariant.mutex_of_has there))

end Lock

end ConfigWp
