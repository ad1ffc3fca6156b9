import ConfigWp.Library.Machine
import Mathlib.Logic.Function.Basic

/-! Critical sections that are carried out in pieces. One lock guards a shared state;
a task holds it while it works off the pieces of a section, and the other tasks go on
outside. Finishing the section of the holder at once gives the state that the sections
have when each is a single step, taken when the lock is. -/

set_option autoImplicit false

namespace Locking

variable {τ σ ρ : Type*} {loc : τ → Type*}

/-- The state behind the lock, the state that single steps are made on without it, and
what is local to each task. -/
structure World (σ ρ : Type*) (loc : τ → Type*) where
  shared : σ
  common : ρ
  locals : ∀ task, loc task

/-- A step of a task on its own state and one of the others. -/
abbrev Effect (α β : Type*) : Type _ := α × β → α × β

/-- The pieces one after the other. -/
def sequence {α β : Type*} : List (Effect α β) → Effect α β
  | [] => id
  | piece :: pieces => sequence pieces ∘ piece

/-- A way to carry out an effect in pieces. -/
structure Cut {α β : Type*} (effect : Effect α β) where
  pieces : List (Effect α β)
  whole : sequence pieces = effect

section Steps

variable [DecidableEq τ]

namespace World

def inside (world : World σ ρ loc) (task : τ) (effect : Effect σ (loc task)) : World σ ρ loc :=
  let done := effect (world.shared, world.locals task)
  { world with shared := done.1, locals := Function.update world.locals task done.2 }

def outside (world : World σ ρ loc) (task : τ) (effect : Effect ρ (loc task)) : World σ ρ loc :=
  let done := effect (world.common, world.locals task)
  { world with common := done.1, locals := Function.update world.locals task done.2 }

theorem inside_sequence (world : World σ ρ loc) (task : τ) (piece : Effect σ (loc task))
    (pieces : List (Effect σ (loc task))) :
    (world.inside task piece).inside task (sequence pieces) =
      world.inside task (sequence (piece :: pieces)) := by
  simp only [inside, sequence, Function.comp_apply, Function.update_self, Function.update_idem]

theorem inside_id (world : World σ ρ loc) (task : τ) : world.inside task id = world := by
  simp only [inside, id, Function.update_eq_self]

/-- A step outside the lock and one inside it are on different states. -/
theorem inside_outside (world : World σ ρ loc) {task other : τ} (apart : other ≠ task)
    (effect : Effect σ (loc task)) (step : Effect ρ (loc other)) :
    (world.outside other step).inside task effect =
      (world.inside task effect).outside other step := by
  simp only [inside, outside, Function.update_of_ne apart, Function.update_of_ne apart.symm,
    Function.update_comm apart]

theorem inside_other (world : World σ ρ loc) {task other : τ} (apart : other ≠ task)
    (effect : Effect σ (loc task)) :
    (world.inside task effect).locals other = world.locals other :=
  Function.update_of_ne apart _ _

end World

/-! The tasks under the lock. -/

/-- The world, and the task that holds the lock with the pieces it has left. -/
structure Locked (σ ρ : Type*) (loc : τ → Type*) where
  world : World σ ρ loc
  holder : Option (Σ task, List (Effect σ (loc task)))

inductive Input (σ ρ : Type*) (loc : τ → Type*) where
  | enter (task : τ) (pieces : List (Effect σ (loc task)))
  | advance (task : τ)
  | outside (task : τ) (effect : Effect ρ (loc task))

def Input.task : Input σ ρ loc → τ
  | .enter task _ => task
  | .advance task => task
  | .outside task _ => task

/-- A section or a step outside the lock, as one step. -/
inductive Atomic (σ ρ : Type*) (loc : τ → Type*) where
  | inside (task : τ) (effect : Effect σ (loc task))
  | outside (task : τ) (effect : Effect ρ (loc task))

def atomicStep (world : World σ ρ loc) : Atomic σ ρ loc → World σ ρ loc
  | .inside task effect => world.inside task effect
  | .outside task effect => world.outside task effect

/-- The one step that an input that begins something stands for. -/
def Input.atomic : Input σ ρ loc → Option (Atomic σ ρ loc)
  | .enter task pieces => some (.inside task (sequence pieces))
  | .advance _ => none
  | .outside task effect => some (.outside task effect)

namespace Locked

def Holds (locked : Locked σ ρ loc) (task : τ) : Prop :=
  ∃ pieces, locked.holder = some ⟨task, pieces⟩

/-- The lock blocks a task that enters while it is held, its holder takes the next piece
or, behind the last one, gives it back, and only its holder is kept from other steps. -/
def step (locked : Locked σ ρ loc) : Input σ ρ loc → Locked σ ρ loc
  | .enter task pieces =>
      match locked.holder with
      | none => { locked with holder := some ⟨task, pieces⟩ }
      | some _ => locked
  | .advance task =>
      match locked.holder with
      | none => locked
      | some ⟨holder, pieces⟩ =>
          if holder = task then
            match pieces with
            | [] => { locked with holder := none }
            | piece :: pieces =>
                { world := locked.world.inside holder piece, holder := some ⟨holder, pieces⟩ }
          else locked
  | .outside task effect =>
      match locked.holder with
      | none => { locked with world := locked.world.outside task effect }
      | some ⟨holder, _⟩ =>
          if holder = task then locked
          else { locked with world := locked.world.outside task effect }

/-- The world once the holder has done with its section. -/
def finish (locked : Locked σ ρ loc) : World σ ρ loc :=
  match locked.holder with
  | none => locked.world
  | some ⟨holder, pieces⟩ => locked.world.inside holder (sequence pieces)

/-- The step that an input stands for: a section counts when the lock is taken. -/
def linear (locked : Locked σ ρ loc) : Input σ ρ loc → List (Atomic σ ρ loc)
  | .enter task pieces =>
      match locked.holder with
      | none => [.inside task (sequence pieces)]
      | some _ => []
  | .advance _ => []
  | .outside task effect =>
      match locked.holder with
      | none => [.outside task effect]
      | some ⟨holder, _⟩ => if holder = task then [] else [.outside task effect]

theorem finish_step (locked : Locked σ ρ loc) (input : Input σ ρ loc) :
    (locked.step input).finish = Machine.run atomicStep locked.finish (locked.linear input) := by
  obtain ⟨world, holder⟩ := locked
  cases input with
  | enter task pieces => cases holder <;> rfl
  | advance task =>
      cases holder with
      | none => rfl
      | some held =>
          obtain ⟨holder, pieces⟩ := held
          by_cases same : holder = task
          · cases pieces with
            | nil =>
                simp only [step, if_pos same, finish, linear, Machine.run_nil]
                exact (world.inside_id holder).symm
            | cons piece pieces =>
                simp only [step, if_pos same, finish, linear, Machine.run_nil]
                exact world.inside_sequence holder piece pieces
          · simp only [step, if_neg same, linear, Machine.run_nil]
  | outside task effect =>
      cases holder with
      | none => rfl
      | some held =>
          obtain ⟨holder, pieces⟩ := held
          by_cases same : holder = task
          · simp only [step, if_pos same, linear, Machine.run_nil]
          · simp only [step, if_neg same, finish, linear, Machine.run_cons, Machine.run_nil,
              atomicStep]
            exact world.inside_outside (Ne.symm same) (sequence pieces) effect

/-- An input counts as its one step, of a task outside the lock, or not at all. -/
theorem linear_cases (locked : Locked σ ρ loc) (input : Input σ ρ loc) :
    locked.linear input = [] ∨
      ∃ atomic, input.atomic = some atomic ∧ locked.linear input = [atomic] ∧
        ¬locked.Holds input.task := by
  obtain ⟨world, holder⟩ := locked
  cases input with
  | enter task pieces =>
      cases holder with
      | none => exact .inr ⟨_, rfl, rfl, fun ⟨_, held⟩ => by cases held⟩
      | some held => exact .inl rfl
  | advance task => exact .inl rfl
  | outside task effect =>
      cases holder with
      | none => exact .inr ⟨_, rfl, rfl, fun ⟨_, held⟩ => by cases held⟩
      | some held =>
          obtain ⟨holder, pieces⟩ := held
          by_cases same : holder = task
          · exact .inl (if_pos same)
          · refine .inr ⟨_, rfl, if_neg same, ?_⟩
            rintro ⟨others, held⟩
            cases held
            exact same rfl

theorem finish_free {locked : Locked σ ρ loc} (free : locked.holder = none) :
    locked.finish = locked.world := by
  rw [finish, free]

theorem finish_common (locked : Locked σ ρ loc) : locked.finish.common = locked.world.common := by
  obtain ⟨world, holder⟩ := locked
  cases holder <;> rfl

/-- What a task outside the lock has is not touched by finishing the section. -/
theorem finish_locals (locked : Locked σ ρ loc) {task : τ} (free : ¬locked.Holds task) :
    locked.finish.locals task = locked.world.locals task := by
  obtain ⟨world, holder⟩ := locked
  cases holder with
  | none => rfl
  | some held =>
      obtain ⟨holder, pieces⟩ := held
      refine world.inside_other (fun same => free ?_) (sequence pieces)
      subst same
      exact ⟨pieces, rfl⟩

end Locked

end Steps

end Locking
