import Mathlib.Data.List.Basic

/-! Windows of a finite sequence and overwriting them in place. The laws are
those of a random-access medium: a write shows in the windows that contain it,
leaves every disjoint window alone and keeps the size. -/

set_option autoImplicit false

namespace Splice

variable {α : Type*}

/-- The elements from `start` on, `count` of them at most. -/
def window (xs : List α) (start count : Nat) : List α := (xs.drop start).take count

/-- `xs` with `ys` written over it from `start` on. -/
def overwrite (xs : List α) (start : Nat) (ys : List α) : List α :=
  xs.take start ++ ys ++ xs.drop (start + ys.length)

theorem length_window {xs : List α} {start count : Nat} (bound : start + count ≤ xs.length) :
    (window xs start count).length = count := by
  simp only [window, List.length_take, List.length_drop]
  omega

@[simp] theorem window_zero (xs : List α) (count : Nat) : window xs 0 count = xs.take count := rfl

theorem length_overwrite {xs ys : List α} {start : Nat} (bound : start + ys.length ≤ xs.length) :
    (overwrite xs start ys).length = xs.length := by
  simp only [overwrite, List.length_append, List.length_take, List.length_drop]
  omega

theorem getElem?_window (xs : List α) (start count i : Nat) :
    (window xs start count)[i]? = if i < count then xs[start + i]? else none := by
  simp only [window, List.getElem?_take, List.getElem?_drop]

theorem getElem?_overwrite {xs ys : List α} {start : Nat} (bound : start + ys.length ≤ xs.length)
    (i : Nat) :
    (overwrite xs start ys)[i]? =
      if i < start then xs[i]? else if i < start + ys.length then ys[i - start]? else xs[i]? := by
  have inner : (xs.take start).length = start := by
    simp only [List.length_take]
    omega
  simp only [overwrite, List.append_assoc]
  by_cases before : i < start
  · rw [List.getElem?_append_left (by omega), List.getElem?_take_of_lt before, if_pos before]
  rw [if_neg before, List.getElem?_append_right (by omega), inner]
  by_cases within : i < start + ys.length
  · rw [if_pos within, List.getElem?_append_left (by omega)]
  · rw [if_neg within, List.getElem?_append_right (by omega), List.getElem?_drop]
    congr 1
    omega

theorem window_overwrite_disjoint {xs ys : List α} {start first count : Nat}
    (bound : start + ys.length ≤ xs.length)
    (apart : first + count ≤ start ∨ start + ys.length ≤ first) :
    window (overwrite xs start ys) first count = window xs first count := by
  apply List.ext_getElem?
  intro i
  rw [getElem?_window, getElem?_window, getElem?_overwrite bound]
  by_cases inside : i < count
  · rw [if_pos inside, if_pos inside]
    rcases apart with before | after
    · rw [if_pos (by omega)]
    · rw [if_neg (by omega), if_neg (by omega)]
  · rw [if_neg inside, if_neg inside]

/-- Seen through a window that contains it, a write is a write into the window. -/
theorem window_overwrite_inside {xs ys : List α} {start count inner : Nat}
    (bound : start + count ≤ xs.length) (inside : inner + ys.length ≤ count) :
    window (overwrite xs (start + inner) ys) start count =
      overwrite (window xs start count) inner ys := by
  have room : start + inner + ys.length ≤ xs.length := by omega
  have size := length_window bound
  apply List.ext_getElem?
  intro i
  rw [getElem?_window, getElem?_overwrite room, getElem?_overwrite (by omega), getElem?_window]
  by_cases visible : i < count
  · rw [if_pos visible, if_pos visible, show start + i - (start + inner) = i - inner by omega]
    by_cases before : i < inner
    · rw [if_pos before, if_pos (by omega)]
    · rw [if_neg before, if_neg (by omega)]
      by_cases within : i < inner + ys.length
      · rw [if_pos within, if_pos (by omega)]
      · rw [if_neg within, if_neg (by omega)]
  · rw [if_neg visible, if_neg visible, if_neg (by omega), if_neg (by omega)]

theorem window_window {xs : List α} {start count first inner : Nat}
    (bound : first + inner ≤ count) :
    window (window xs start count) first inner = window xs (start + first) inner := by
  apply List.ext_getElem?
  intro i
  simp only [getElem?_window]
  by_cases inside : i < inner
  · rw [if_pos inside, if_pos (by omega), if_pos inside, Nat.add_assoc]
  · rw [if_neg inside, if_neg inside]

theorem window_append (xs : List α) (start first rest : Nat) :
    window xs start (first + rest) = window xs start first ++ window xs (start + first) rest := by
  rw [window, List.take_add, List.drop_drop, window, window]

@[simp] theorem overwrite_zero (xs ys : List α) :
    overwrite xs 0 ys = ys ++ xs.drop ys.length := by
  simp [overwrite]

theorem take_overwrite_end {xs ys : List α} {start : Nat} (bound : start ≤ xs.length) :
    (overwrite xs start ys).take (start + ys.length) = xs.take start ++ ys := by
  have inner : (xs.take start ++ ys).length = start + ys.length := by
    simp only [List.length_append, List.length_take]
    omega
  rw [overwrite, ← inner, List.take_left]

end Splice
