import Mathlib.Algebra.BigOperators.Group.List.Basic
import Mathlib.Algebra.GroupWithZero.Nat
import Mathlib.Data.List.Basic

/-! Greedy packing of sized items into a bounded room: each item in turn is kept
when it still fits and dropped otherwise, so a later smaller item may be kept
after an earlier larger one was dropped. -/

set_option autoImplicit false

namespace Packing

variable {ρ : Type*} (size : ρ → Nat)

def total (items : List ρ) : Nat := (items.map size).sum

def keep : Nat → List ρ → List ρ
  | _, [] => []
  | room, item :: items =>
      if size item ≤ room then item :: keep (room - size item) items else keep room items

@[simp] theorem total_nil : total size [] = 0 := rfl

@[simp] theorem total_cons (item : ρ) (items : List ρ) :
    total size (item :: items) = size item + total size items := by simp [total]

@[simp] theorem total_append (left right : List ρ) :
    total size (left ++ right) = total size left + total size right := by simp [total]

theorem total_eq_zero_iff (positive : ∀ item, 0 < size item) {items : List ρ} :
    total size items = 0 ↔ items = [] := by
  cases items with
  | nil => simp
  | cons item items => simpa using fun none_ => absurd none_ (Nat.ne_of_gt (positive item))

@[simp] theorem keep_nil (room : Nat) : keep size room [] = [] := by cases room <;> rfl

theorem keep_cons_fits {room : Nat} {item : ρ} (items : List ρ) (fits : size item ≤ room) :
    keep size room (item :: items) = item :: keep size (room - size item) items := by
  simp [keep, fits]

theorem keep_cons_drop {room : Nat} {item : ρ} (items : List ρ) (large : room < size item) :
    keep size room (item :: items) = keep size room items := by
  simp [keep, Nat.not_le.mpr large]

theorem total_keep_le (room : Nat) (items : List ρ) : total size (keep size room items) ≤ room := by
  induction items generalizing room with
  | nil => simp
  | cons item items ih =>
      by_cases fits : size item ≤ room
      · have bound := ih (room - size item)
        rw [keep_cons_fits size items fits, total_cons]
        omega
      · rw [keep_cons_drop size items (by omega)]
        exact ih room

theorem keep_sublist (room : Nat) (items : List ρ) : (keep size room items).Sublist items := by
  induction items generalizing room with
  | nil => simp
  | cons item items ih =>
      by_cases fits : size item ≤ room
      · rw [keep_cons_fits size items fits]
        exact (ih (room - size item)).cons_cons item
      · rw [keep_cons_drop size items (by omega)]
        exact (ih room).cons item

theorem keep_eq_self {room : Nat} {items : List ρ} (fits : total size items ≤ room) :
    keep size room items = items := by
  induction items generalizing room with
  | nil => simp
  | cons item items ih =>
      rw [total_cons] at fits
      rw [keep_cons_fits size items (by omega), ih (by omega)]

theorem keep_append (room : Nat) (left right : List ρ) :
    keep size room (left ++ right) =
      keep size room left ++ keep size (room - total size (keep size room left)) right := by
  induction left generalizing room with
  | nil => simp
  | cons item left ih =>
      by_cases fits : size item ≤ room
      · rw [List.cons_append, keep_cons_fits size _ fits, keep_cons_fits size _ fits, ih,
          total_cons, List.cons_append, Nat.sub_sub]
      · rw [List.cons_append, keep_cons_drop size _ (by omega), keep_cons_drop size _ (by omega),
          ih]

/-- Filtering first changes nothing exactly when only filtered-in items are kept. -/
theorem keep_filter_eq_iff (p : ρ → Bool) {room : Nat} {items : List ρ} :
    keep size room (items.filter p) = keep size room items ↔
      ∀ item ∈ keep size room items, p item = true := by
  constructor
  · intro same item member
    rw [← same] at member
    exact (List.mem_filter.mp ((keep_sublist size room _).subset member)).2
  · intro kept
    induction items generalizing room with
    | nil => rfl
    | cons item items ih =>
        by_cases fits : size item ≤ room
        · rw [keep_cons_fits size items fits] at kept ⊢
          obtain ⟨first, rest⟩ := List.forall_mem_cons.mp kept
          rw [List.filter_cons_of_pos first, keep_cons_fits size _ fits, ih rest]
        · have large := Nat.not_le.mp fits
          rw [keep_cons_drop size items large] at kept ⊢
          rw [List.filter_cons]
          split_ifs
          · rw [keep_cons_drop size _ large, ih kept]
          · exact ih kept

theorem keep_eq_nil_iff (room : Nat) (items : List ρ) :
    keep size room items = [] ↔ ∀ item ∈ items, room < size item := by
  induction items with
  | nil => simp
  | cons item items ih =>
      by_cases fits : size item ≤ room
      · rw [keep_cons_fits size items fits]
        simp only [reduceCtorEq, List.mem_cons, forall_eq_or_imp, false_iff, not_and]
        omega
      · rw [keep_cons_drop size items (by omega), ih]
        simp
        omega

end Packing
