import ConfigWp.Library.Machine
import Mathlib.Logic.Function.Basic

/-! Two parties that each read a cell and later write the whole of it back with a
patch. Reading and writing are separate steps, so a write may rest on a stale read;
the order of the four steps decides whether both patches are still in the cell. -/

set_option autoImplicit false

namespace ReadModifyWrite

inductive Party where
  | left
  | right
  deriving DecidableEq, Repr

def Party.other : Party → Party
  | .left => .right
  | .right => .left

inductive Phase (ρ : Type*) where
  | start
  | read (value : ρ)
  | done (accepted : Bool)
  deriving DecidableEq

structure State (ρ : Type*) where
  cell : ρ
  phase : Party → Phase ρ

variable {ρ : Type*}

def State.init (cell : ρ) : State ρ := ⟨cell, fun _ => .start⟩

/-- The next step of a party: read the cell, or write the patched value back. -/
def turn (patch : ρ → Option ρ) (cell : ρ) : Phase ρ → Phase ρ × ρ
  | .start => (.read cell, cell)
  | .read value =>
      match patch value with
      | none => (.done false, cell)
      | some new => (.done true, new)
  | .done accepted => (.done accepted, cell)

def step (patch : Party → ρ → Option ρ) (state : State ρ) (party : Party) : State ρ :=
  let next := turn (patch party) state.cell (state.phase party)
  ⟨next.2, Function.update state.phase party next.1⟩

/-! Orders of the four steps. -/

/-- Each party takes its two steps. -/
def Complete (order : List Party) : Prop := order.Perm [.left, .left, .right, .right]

instance completeDecidable (order : List Party) : Decidable (Complete order) :=
  inferInstanceAs (Decidable (order.Perm _))

/-- One party is done before the other starts. -/
def Serial (order : List Party) : Prop :=
  ∃ first : Party, order = [first, first, first.other, first.other]

theorem complete_cases {order : List Party} (complete : Complete order) :
    ∃ last : Party, order = [last.other, last.other, last, last] ∨
      order = [last.other, last, last.other, last] ∨
      order = [last, last.other, last.other, last] := by
  match order, complete.length_eq with
  | [first, second, third, fourth], _ =>
      refine ⟨fourth, ?_⟩
      have counts := complete.count_eq fourth
      cases first <;> cases second <;> cases third <;> cases fourth <;>
        first | decide | exact absurd counts (by decide)

theorem not_serial_of_overlap {last : Party} {order : List Party}
    (overlap : order = [last.other, last, last.other, last] ∨
      order = [last, last.other, last.other, last]) : ¬Serial order := by
  rintro ⟨first, rfl⟩
  cases first <;> cases last <;> simp [Party.other] at overlap

section Runs

variable {patch : Party → ρ → Option ρ} {state : State ρ} {cell value : ρ} {party last : Party}

theorem Party.other_ne (party : Party) : party.other ≠ party := by
  cases party <;> decide

theorem step_other {other : Party} (apart : other ≠ party) :
    (step patch state party).phase other = state.phase other :=
  Function.update_of_ne apart _ _

theorem step_start (idle : state.phase party = .start) :
    (step patch state party).phase party = .read state.cell ∧
      (step patch state party).cell = state.cell := by
  rw [step, idle]
  exact ⟨Function.update_self _ _ _, rfl⟩

/-- An accepted write leaves the patch of what was read. -/
theorem step_accepted (reading : state.phase party = .read value)
    (accepted : (step patch state party).phase party = .done true) :
    patch party value = some (step patch state party).cell := by
  rw [step, reading] at accepted ⊢
  dsimp only at accepted ⊢
  rw [Function.update_self, turn] at accepted
  rw [turn]
  cases patched : patch party value with
  | none =>
      rw [patched] at accepted
      cases accepted
  | some new => rfl

theorem run_serial
    (accepted : ∀ party, (Machine.run (step patch) (.init cell)
      [last.other, last.other, last, last]).phase party = .done true) :
    ∃ middle new, patch last.other cell = some middle ∧ patch last middle = some new ∧
      (Machine.run (step patch) (.init cell) [last.other, last.other, last, last]).cell = new := by
  have apart := Party.other_ne last
  let firstRead := step patch (.init cell) last.other
  let firstDone := step patch firstRead last.other
  have firstAccepted : firstDone.phase last.other = .done true := by
    have final := accepted last.other
    rw [Machine.run_cons, Machine.run_cons, Machine.run_cons, Machine.run_cons, Machine.run_nil,
      step_other apart, step_other apart] at final
    exact final
  have one := step_accepted (step_start rfl).1 firstAccepted
  have idle : firstDone.phase last = .start :=
    (step_other apart.symm).trans (step_other apart.symm)
  have two := step_accepted (step_start idle).1 (accepted last)
  exact ⟨firstDone.cell, _, one, two, rfl⟩

theorem run_writes (readOther : state.phase last.other = .read cell)
    (readLast : state.phase last = .read cell)
    (accepted : ∀ party, (Machine.run (step patch) state [last.other, last]).phase party =
      .done true) :
    ∃ lost new, patch last.other cell = some lost ∧ patch last cell = some new ∧
      (Machine.run (step patch) state [last.other, last]).cell = new := by
  have apart := Party.other_ne last
  have one := step_accepted readOther ((step_other apart).symm.trans (accepted last.other))
  have still := (@step_other _ patch state _ _ apart.symm).trans readLast
  have two := step_accepted still (accepted last)
  exact ⟨_, _, one, two, rfl⟩

/-- When the reads come before the writes, the last write wins. -/
theorem run_overlap {order : List Party}
    (overlap : order = [last.other, last, last.other, last] ∨
      order = [last, last.other, last.other, last])
    (accepted : ∀ party, (Machine.run (step patch) (.init cell) order).phase party =
      .done true) :
    ∃ lost new, patch last.other cell = some lost ∧ patch last cell = some new ∧
      (Machine.run (step patch) (.init cell) order).cell = new := by
  have apart := Party.other_ne last
  rcases overlap with rfl | rfl
  · have readOther := (@step_start _ patch (.init cell) last.other rfl).1
    have readLast := (@step_start _ patch (step patch (.init cell) last.other) last
      (step_other apart.symm)).1
    exact run_writes ((step_other apart).trans readOther) readLast accepted
  · have readLast := (@step_start _ patch (.init cell) last rfl).1
    have readOther := (@step_start _ patch (step patch (.init cell) last) last.other
      (step_other apart)).1
    exact run_writes readOther ((step_other apart.symm).trans readLast) accepted

end Runs

/-! Patches of disjoint fields. -/

section Fields

variable {φ ν : Type*} (view : ρ → φ → ν)

/-- A patch that sets the fields with a value and keeps the others. -/
def Assigns (patch : ρ → Option ρ) (values : φ → Option ν) : Prop :=
  ∀ old new, patch old = some new → ∀ field, view new field = (values field).getD (view old field)

def Agrees (values : φ → Option ν) (cell : ρ) : Prop :=
  ∀ field value, values field = some value → view cell field = value

variable {view}

theorem Assigns.agrees {patch : ρ → Option ρ} {values : φ → Option ν}
    (assigns : Assigns view patch values) {old new : ρ} (patched : patch old = some new) :
    Agrees view values new := by
  intro field value assigned
  rw [assigns old new patched field, assigned, Option.getD_some]

/-- A patch of other fields keeps a value or its absence. -/
theorem Assigns.agrees_iff {patch : ρ → Option ρ} {values others : φ → Option ν}
    (assigns : Assigns view patch values)
    (disjoint : ∀ field, values field = none ∨ others field = none) {old new : ρ}
    (patched : patch old = some new) :
    Agrees view others new ↔ Agrees view others old := by
  have kept : ∀ field value, others field = some value → view new field = view old field := by
    intro field value assigned
    rcases disjoint field with unset | unset
    · rw [assigns old new patched field, unset, Option.getD_none]
    · rw [unset] at assigned
      cases assigned
  constructor
  · intro agrees field value assigned
    rw [← kept field value assigned]
    exact agrees field value assigned
  · intro agrees field value assigned
    rw [kept field value assigned]
    exact agrees field value assigned

/-- Both patches are in the cell exactly when the updates were serial or the patch that
was overwritten had set what was there before. -/
theorem agrees_both_iff {patch : Party → ρ → Option ρ} {values : Party → φ → Option ν}
    (assigns : ∀ party, Assigns view (patch party) (values party))
    (disjoint : ∀ field, values .left field = none ∨ values .right field = none)
    {order : List Party} (complete : Complete order) {cell : ρ}
    (accepted : ∀ party, (Machine.run (step patch) (.init cell) order).phase party =
      .done true) :
    (∀ party, Agrees view (values party) (Machine.run (step patch) (.init cell) order).cell) ↔
      (Serial order ∨ ∀ last, order.getLast? = some last →
        Agrees view (values last.other) cell) := by
  have apart : ∀ (party : Party) (field : φ),
      values party field = none ∨ values party.other field = none := by
    intro party field
    cases party with
    | left => exact disjoint field
    | right => exact (disjoint field).symm
  have both : ∀ (last : Party) {p : Party → Prop}, p last.other → p last → ∀ party, p party := by
    intro last p first second party
    cases last <;> cases party <;> assumption
  obtain ⟨last, serial | overlap⟩ := complete_cases complete
  · subst serial
    have inOrder : Serial [last.other, last.other, last, last] :=
      ⟨last.other, by cases last <;> rfl⟩
    obtain ⟨middle, new, one, two, cellEq⟩ := run_serial accepted
    refine iff_of_true ?_ (.inl inOrder)
    rw [cellEq]
    refine both last ?_ ?_
    · exact ((assigns last).agrees_iff (apart last) two).mpr ((assigns last.other).agrees one)
    · exact (assigns last).agrees two
  · obtain ⟨lost, new, one, two, cellEq⟩ := run_overlap overlap accepted
    have ends : order.getLast? = some last := by rcases overlap with rfl | rfl <;> rfl
    rw [cellEq, or_iff_right (not_serial_of_overlap overlap), ends]
    have kept := (assigns last).agrees_iff (apart last) two
    constructor
    · intro carried other same
      obtain rfl := Option.some.inj same
      exact kept.mp (carried last.other)
    · intro before
      exact both last (kept.mpr (before last rfl)) ((assigns last).agrees two)

end Fields

end ReadModifyWrite
