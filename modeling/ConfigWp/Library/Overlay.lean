import Mathlib.Data.List.Basic
import Mathlib.Data.List.Induction

/-! A keyed store overlaid with a sequence of records. Each record addresses at
most one entry and replaces it, so the last record addressing an entry decides
it and an entry no record addresses keeps its base value. -/

set_option autoImplicit false

namespace Overlay

variable {κ ρ σ : Type*} {V : κ → Type*}

/-- A store whose entries are independent of each other. -/
structure Store (σ : Type*) (V : κ → Type*) where
  get : σ → (key : κ) → V key
  set : σ → (key : κ) → V key → σ
  get_set_same : ∀ store key value, get (set store key value) key = value
  get_set_other : ∀ store key other value, other ≠ key →
    get (set store key value) other = get store other

variable (address : ρ → Option κ)

section Last

variable [DecidableEq κ]

def last (key : κ) (records : List ρ) : Option ρ :=
  (records.filter fun record => address record = some key).getLast?

@[simp] theorem last_nil (key : κ) : last address key [] = none := rfl

theorem last_snoc (key : κ) (records : List ρ) (record : ρ) :
    last address key (records ++ [record]) =
      if address record = some key then some record else last address key records := by
  by_cases addressed : address record = some key
  · simp [last, addressed]
  · simp [last, addressed]

theorem last_append (key : κ) (left right : List ρ) :
    last address key (left ++ right) = (last address key right).or (last address key left) := by
  simp only [last, List.filter_append, List.getLast?_append]

theorem last_eq_none_iff {key : κ} {records : List ρ} :
    last address key records = none ↔ ∀ record ∈ records, address record ≠ some key := by
  simp [last]

theorem last_mem {key : κ} {records : List ρ} {record : ρ}
    (found : last address key records = some record) :
    record ∈ records ∧ address record = some key := by
  have member := List.mem_of_getLast? found
  simpa using List.mem_filter.mp member

/-- The last record of an entry is at or after any record that addresses it. -/
theorem last_at_or_after {key : κ} {record : ρ} (addressed : address record = some key)
    (before after : List ρ) :
    ∃ found ∈ record :: after, address found = some key ∧
      last address key (before ++ record :: after) = some found := by
  cases later : last address key (record :: after) with
  | none =>
      have absent := (last_eq_none_iff address).mp later record List.mem_cons_self
      exact absurd addressed absent
  | some found =>
      obtain ⟨member, same⟩ := last_mem address later
      exact ⟨found, member, same, by rw [last_append, later, Option.some_or]⟩

end Last

variable (store : Store σ V) (value : ρ → (key : κ) → V key)

def step (base : σ) (record : ρ) : σ :=
  match address record with
  | none => base
  | some key => store.set base key (value record key)

def apply (base : σ) (records : List ρ) : σ := records.foldl (step address store value) base

theorem apply_nil (base : σ) : apply address store value base [] = base := rfl

theorem apply_cons (base : σ) (record : ρ) (records : List ρ) :
    apply address store value base (record :: records) =
      apply address store value (step address store value base record) records := rfl

theorem get_apply [DecidableEq κ] (base : σ) (records : List ρ) (key : κ) :
    store.get (apply address store value base records) key =
      match last address key records with
      | some record => value record key
      | none => store.get base key := by
  induction records using List.reverseRecOn with
  | nil => rfl
  | append_singleton records record ih =>
      rw [apply, List.foldl_append, last_snoc]
      simp only [List.foldl_cons, List.foldl_nil, step]
      cases addressed : address record with
      | none =>
          simp only [reduceCtorEq, if_false]
          exact ih
      | some other =>
          by_cases same : key = other
          · subst same
            simp [store.get_set_same]
          · rw [if_neg fun found => same (Option.some.inj found).symm]
            simp only [store.get_set_other _ _ _ _ same]
            exact ih

end Overlay
