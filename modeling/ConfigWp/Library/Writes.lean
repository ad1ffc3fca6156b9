import ConfigWp.Library.Machine
import ConfigWp.Library.Overlay

/-! Operations that write fixed values to some places of a memory and leave the others
alone. What a run of them comes to is decided, place by place, by the last write there:
doing an operation again changes nothing, and operations that write different places can
change their order. -/

set_option autoImplicit false

namespace Writes

structure Write (κ V : Type*) where
  place : κ
  value : V
  deriving DecidableEq

section Final

variable {κ V : Type*} [DecidableEq κ]

/-- The value of the last write to a place, if there is one. -/
def final (place : κ) (writes : List (Write κ V)) : Option V :=
  (Overlay.last (fun write : Write κ V => some write.place) place writes).map Write.value

@[simp] theorem final_nil (place : κ) : final place ([] : List (Write κ V)) = none := rfl

theorem final_append (place : κ) (writes more : List (Write κ V)) :
    final place (writes ++ more) = (final place more).or (final place writes) := by
  rw [final, Overlay.last_append, final, final]
  cases Overlay.last (fun write : Write κ V => some write.place) place more <;> rfl

theorem final_eq_none_iff {place : κ} {writes : List (Write κ V)} :
    final place writes = none ↔ ∀ write ∈ writes, write.place ≠ place := by
  rw [final, Option.map_eq_none_iff, Overlay.last_eq_none_iff]
  simp

/-- Writes that agree on what they write to a place. -/
theorem final_eq_some {place : κ} {value : V} {writes : List (Write κ V)}
    (agree : ∀ write ∈ writes, write.place = place → write.value = value)
    (written : ∃ write ∈ writes, write.place = place) : final place writes = some value := by
  cases found : Overlay.last (fun write : Write κ V => some write.place) place writes with
  | none =>
      obtain ⟨write, member, same⟩ := written
      have apart := (Overlay.last_eq_none_iff _).mp found write member
      exact absurd (congrArg some same) apart
  | some write =>
      obtain ⟨member, same⟩ := Overlay.last_mem _ found
      rw [final, found, Option.map_some, agree write member (Option.some.inj same)]

/-- Operations that do not write a place do not show there. -/
theorem final_flatMap_filter {ι : Type*} (place : κ) (writes : ι → List (Write κ V))
    (inputs : List ι) :
    final place ((inputs.filter fun input => (final place (writes input)).isSome).flatMap writes) =
      final place (inputs.flatMap writes) := by
  induction inputs with
  | nil => rfl
  | cons input inputs ih =>
      rw [List.flatMap_cons, final_append, List.filter_cons]
      split_ifs with writing
      · rw [List.flatMap_cons, final_append, ih]
      · rw [Option.not_isSome_iff_eq_none.mp writing, Option.or_none, ih]

end Final

section Turns

variable {κ V : Type*} [DecidableEq κ] {before middle after : κ → V}
  {writes more : List (Write κ V)}

/-- The writes turn one memory into another. -/
def Turns (before : κ → V) (writes : List (Write κ V)) (after : κ → V) : Prop :=
  ∀ place, after place = (final place writes).getD (before place)

theorem turns_nil (memory : κ → V) : Turns memory [] memory := fun _ => rfl

theorem Turns.trans (first : Turns before writes middle) (rest : Turns middle more after) :
    Turns before (writes ++ more) after := by
  intro place
  rw [rest place, first place, final_append]
  cases final place more <;> rfl

/-- Operations that agree on the last write to every place come to the same. -/
theorem Turns.agree {other : κ → V} (left : Turns before writes after)
    (right : Turns before more other)
    (same : ∀ place, final place writes = final place more) : after = other := by
  funext place
  rw [left place, right place, same]

/-- Writing again what is still there changes nothing. -/
theorem Turns.again {last : κ → V} (first : Turns before writes middle)
    (between : Turns middle more after) (second : Turns after writes last)
    (apart : ∀ write ∈ writes, ∀ other ∈ more, other.place ≠ write.place) : last = after := by
  funext place
  rw [second place]
  cases written : final place writes with
  | none => rfl
  | some value =>
      have untouched : final place more = none := by
        refine final_eq_none_iff.mpr fun other listed same => ?_
        have unwritten : final place writes = none :=
          final_eq_none_iff.mpr fun write member here =>
            apart write member other listed (same.trans here.symm)
        rw [unwritten] at written
        cases written
      rw [between place, untouched, first place, written]
      rfl

/-- A run of operations, each of which turns the memory of a state by its own writes. -/
theorem turns_run {σ ι : Type*} {step : σ → ι → σ} {memory : σ → κ → V}
    {writes : ι → List (Write κ V)} {invariant : σ → Prop} {allowed : ι → Prop}
    (preserved : ∀ state input, allowed input → invariant state → invariant (step state input))
    (turns : ∀ state input, allowed input → invariant state →
      Turns (memory state) (writes input) (memory (step state input)))
    {start : σ} (holds : invariant start) {inputs : List ι}
    (all : ∀ input ∈ inputs, allowed input) :
    Turns (memory start) (inputs.flatMap writes) (memory (Machine.run step start inputs)) := by
  induction inputs generalizing start with
  | nil => exact turns_nil _
  | cons input inputs ih =>
      obtain ⟨now, rest⟩ := List.forall_mem_cons.mp all
      have later := ih (preserved start input now holds) rest
      exact (turns start input now holds).trans later

end Turns

end Writes
