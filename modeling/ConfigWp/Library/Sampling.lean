import ConfigWp.Library.Machine
import Mathlib.Data.List.Forall2
import Mathlib.Data.List.Nodup
import Mathlib.Logic.Function.Basic

/-! A reader that takes one key after the other out of a store that others go on changing.
For each key it takes what the store held at one moment of the run, the moments in the
order of the keys. What it takes is the store of a single moment while at most one of the
keys changes. -/

set_option autoImplicit false

namespace Sampling

variable {Key : Type*} {Value : Key → Type*} {σ ι : Type*}

/-! The moments at which keys are taken. -/

variable (step : σ → ι → σ) (shown : σ → (key : Key) → Value key)

/-- A key was taken after so many inputs of the run. -/
def TakenAt (start : σ) (inputs : List ι) (taken : (key : Key) → Value key) (key : Key)
    (moment : Nat) : Prop :=
  taken key = shown (Machine.run step start (inputs.take moment)) key

/-- The keys were taken one after the other, each at its moment of the run. -/
structure Sampled (start : σ) (inputs : List ι) (taken : (key : Key) → Value key)
    (keys : List Key) (moments : List Nat) : Prop where
  ordered : moments.Pairwise (· < ·)
  within : ∀ moment ∈ moments, moment < inputs.length
  taken : List.Forall₂ (TakenAt step shown start inputs taken) keys moments

variable {step shown} {start : σ} {inputs : List ι} {taken : (key : Key) → Value key}
  {keys : List Key} {moments : List Nat}

theorem sampled_nil : Sampled step shown start inputs taken [] [] :=
  ⟨.nil, fun _ listed => absurd listed (List.not_mem_nil), .nil⟩

/-- Seen from one input earlier, all moments are one later. -/
theorem Sampled.later {input : ι}
    (sampled : Sampled step shown (step start input) inputs taken keys moments) :
    Sampled step shown start (input :: inputs) taken keys (moments.map (· + 1)) := by
  refine ⟨?_, ?_, ?_⟩
  · rw [List.pairwise_map]
    exact sampled.ordered.imp fun earlier => Nat.add_lt_add_right earlier 1
  · intro moment listed
    obtain ⟨before, member, rfl⟩ := List.mem_map.mp listed
    exact Nat.add_lt_add_right (sampled.within before member) 1
  · rw [List.forall₂_map_right_iff]
    exact sampled.taken

theorem Sampled.first {input : ι} {key : Key}
    (sampled : Sampled step shown (step start input) inputs taken keys moments)
    (now : taken key = shown start key) :
    Sampled step shown start (input :: inputs) taken (key :: keys)
      (0 :: moments.map (· + 1)) := by
  obtain ⟨ordered, within, rest⟩ := sampled.later
  refine ⟨List.pairwise_cons.mpr ⟨?_, ordered⟩, ?_, .cons now rest⟩
  · intro moment listed
    obtain ⟨before, -, rfl⟩ := List.mem_map.mp listed
    exact Nat.succ_pos before
  · intro moment listed
    rcases List.mem_cons.mp listed with rfl | later
    · exact Nat.succ_pos _
    · exact within moment later

/-- What follows in the run does not matter. -/
theorem Sampled.extend (sampled : Sampled step shown start inputs taken keys moments)
    (more : List ι) : Sampled step shown start (inputs ++ more) taken keys moments := by
  obtain ⟨ordered, within, seen⟩ := sampled
  have longer : inputs.length ≤ (inputs ++ more).length := by
    rw [List.length_append]
    exact Nat.le_add_right _ _
  refine ⟨ordered, fun moment listed => Nat.lt_of_lt_of_le (within moment listed) longer, ?_⟩
  rw [List.forall₂_iff_get] at seen ⊢
  refine ⟨seen.1, fun place inside bound => ?_⟩
  have early := within _ (List.get_mem moments ⟨place, bound⟩)
  have same := seen.2 place inside bound
  rw [TakenAt] at same ⊢
  rw [List.take_append_of_le_length (Nat.le_of_lt early)]
  exact same

theorem Sampled.moment (sampled : Sampled step shown start inputs taken keys moments) {key : Key}
    (listed : key ∈ keys) :
    ∃ moment < inputs.length, TakenAt step shown start inputs taken key moment := by
  obtain ⟨place, inside, rfl⟩ := List.getElem_of_mem listed
  have same := sampled.taken.length_eq
  have bound : place < moments.length := same ▸ inside
  exact ⟨moments[place], sampled.within _ (List.getElem_mem bound),
    sampled.taken.get inside bound⟩

/-- While all keys but one stay as they are, what was taken is the store of one moment. -/
theorem Sampled.single (sampled : Sampled step shown start inputs taken keys moments) (sole : Key)
    (still : ∀ moment, moment ≤ inputs.length → ∀ key, key ≠ sole →
      shown (Machine.run step start (inputs.take moment)) key = shown start key) :
    ∃ moment ≤ inputs.length, ∀ key ∈ keys, TakenAt step shown start inputs taken key moment := by
  have choice : ∃ moment ≤ inputs.length,
      sole ∈ keys → TakenAt step shown start inputs taken sole moment := by
    by_cases listed : sole ∈ keys
    · obtain ⟨moment, inside, there⟩ := sampled.moment listed
      exact ⟨moment, Nat.le_of_lt inside, fun _ => there⟩
    · exact ⟨0, Nat.zero_le _, fun member => absurd member listed⟩
  obtain ⟨moment, inside, there⟩ := choice
  refine ⟨moment, inside, fun key listed => ?_⟩
  by_cases same : key = sole
  · subst same
    exact there listed
  · obtain ⟨own, before, seen⟩ := sampled.moment listed
    rw [TakenAt] at seen ⊢
    rw [seen, still own (Nat.le_of_lt before) key same, still moment inside key same]

/-! The reader. -/

/-- The keys that are left, and the values of those taken; the others have the values that
the reader came with. -/
structure Reader (Value : Key → Type*) where
  todo : List Key
  taken : (key : Key) → Value key

variable [DecidableEq Key]

def Reader.advance (reader : Reader Value) (shown : (key : Key) → Value key) : Reader Value :=
  match reader.todo with
  | [] => reader
  | key :: todo => ⟨todo, Function.update reader.taken key (shown key)⟩

variable (step shown) (reader : σ → Reader Value) in
/-- Every step of a run leaves the reader where it is, or advances it by one key. -/
def Moves : σ → List ι → Prop
  | _, [] => True
  | state, input :: inputs =>
      (reader (step state input) = reader state ∨
        reader (step state input) = (reader state).advance (shown state)) ∧
      Moves (step state input) inputs

variable {reader : σ → Reader Value}

/-- What a run takes: a front of the keys that were left, the other values as before. -/
theorem run_samples (moves : Moves step shown reader start inputs)
    (distinct : (reader start).todo.Nodup) :
    ∃ done moments, (reader start).todo = done ++ (reader (Machine.run step start inputs)).todo ∧
      Sampled step shown start inputs (reader (Machine.run step start inputs)).taken done
        moments ∧
      ∀ key, key ∉ done →
        (reader (Machine.run step start inputs)).taken key = (reader start).taken key := by
  induction inputs generalizing start with
  | nil => exact ⟨[], [], rfl, sampled_nil, fun _ _ => rfl⟩
  | cons input inputs ih =>
      obtain ⟨now, rest⟩ := moves
      rw [Machine.run_cons]
      rcases now with same | advanced
      · rw [← same] at distinct ⊢
        obtain ⟨done, moments, split, sampled, others⟩ := ih rest distinct
        exact ⟨done, moments.map (· + 1), split, sampled.later, others⟩
      · cases here : (reader start).todo with
        | nil =>
            have same : reader (step start input) = reader start := by
              rw [advanced, Reader.advance, here]
            rw [← same] at distinct here ⊢
            obtain ⟨done, moments, split, sampled, others⟩ := ih rest distinct
            rw [here] at split
            exact ⟨done, moments.map (· + 1), split, sampled.later, others⟩
        | cons key todo =>
            have next : reader (step start input) =
                ⟨todo, Function.update (reader start).taken key (shown start key)⟩ := by
              rw [advanced, Reader.advance, here]
            rw [here, List.nodup_cons] at distinct
            have left : (reader (step start input)).todo = todo := by rw [next]
            obtain ⟨done, moments, split, sampled, others⟩ := ih rest (left ▸ distinct.2)
            rw [left] at split
            have fresh : key ∉ done := fun listed =>
              distinct.1 (split ▸ List.mem_append_left _ listed)
            refine ⟨key :: done, 0 :: moments.map (· + 1), ?_, sampled.first ?_, ?_⟩
            · rw [List.cons_append, ← split]
            · rw [others key fresh, next]
              exact Function.update_self _ _ _
            · intro other absent
              rw [List.mem_cons, not_or] at absent
              rw [others other absent.2, next]
              exact Function.update_of_ne absent.1 _ _

/-- A reader that has nothing left has taken all its keys. -/
theorem run_takes_all (moves : Moves step shown reader start inputs)
    (distinct : (reader start).todo.Nodup)
    (ended : (reader (Machine.run step start inputs)).todo = []) :
    ∃ moments, Sampled step shown start inputs (reader (Machine.run step start inputs)).taken
      (reader start).todo moments := by
  obtain ⟨done, moments, split, sampled, -⟩ := run_samples moves distinct
  rw [ended, List.append_nil] at split
  exact ⟨moments, split ▸ sampled⟩

end Sampling
