import Mathlib.Data.List.Basic
import Mathlib.Tactic.IntervalCases

/-! Little-endian words as byte lists. A reader takes the bytes at the head of
a list and ignores the rest, as code that walks a pointer does, so that a
writer followed by arbitrary further bytes is read back exactly. -/

set_option autoImplicit false

namespace LittleEndian

def write16 (value : UInt16) : List UInt8 :=
  [(value &&& 0xFF).toUInt8, ((value >>> 8) &&& 0xFF).toUInt8]

def read16 (bytes : List UInt8) : UInt16 :=
  (bytes.getD 0 0).toUInt16 ||| ((bytes.getD 1 0).toUInt16 <<< 8)

def write32 (value : UInt32) : List UInt8 :=
  [(value &&& 0xFF).toUInt8, ((value >>> 8) &&& 0xFF).toUInt8,
    ((value >>> 16) &&& 0xFF).toUInt8, ((value >>> 24) &&& 0xFF).toUInt8]

def read32 (bytes : List UInt8) : UInt32 :=
  (bytes.getD 0 0).toUInt32 ||| ((bytes.getD 1 0).toUInt32 <<< 8) |||
    ((bytes.getD 2 0).toUInt32 <<< 16) ||| ((bytes.getD 3 0).toUInt32 <<< 24)

@[simp] theorem length_write16 (value : UInt16) : (write16 value).length = 2 := rfl

@[simp] theorem length_write32 (value : UInt32) : (write32 value).length = 4 := rfl

theorem drop_write16 (value : UInt16) (rest : List UInt8) (count : Nat) :
    (write16 value ++ rest).drop (count + 2) = rest.drop count := rfl

theorem drop_write32 (value : UInt32) (rest : List UInt8) (count : Nat) :
    (write32 value ++ rest).drop (count + 4) = rest.drop count := rfl

private theorem low_byte16 (value : UInt16) : (value &&& 0xFF).toUInt8 = value.toUInt8 := by
  apply UInt8.eq_of_toBitVec_eq
  ext i bound
  simp only [UInt16.toBitVec_toUInt8, UInt16.toBitVec_and, BitVec.getElem_setWidth,
    BitVec.getLsbD_and]
  interval_cases i <;> simp

private theorem low_byte32 (value : UInt32) : (value &&& 0xFF).toUInt8 = value.toUInt8 := by
  apply UInt8.eq_of_toBitVec_eq
  ext i bound
  simp only [UInt32.toBitVec_toUInt8, UInt32.toBitVec_and, BitVec.getElem_setWidth,
    BitVec.getLsbD_and]
  interval_cases i <;> simp

private theorem reassemble16 (value : BitVec 16) :
    (value.setWidth 8).setWidth 16 ||| ((value >>> 8).setWidth 8).setWidth 16 <<< 8 = value := by
  apply BitVec.eq_of_getLsbD_eq
  intro i bound
  simp only [BitVec.getLsbD_or, BitVec.getLsbD_shiftLeft, BitVec.getLsbD_setWidth,
    BitVec.getLsbD_ushiftRight]
  grind

private theorem reassemble32 (value : BitVec 32) :
    (value.setWidth 8).setWidth 32 ||| ((value >>> 8).setWidth 8).setWidth 32 <<< 8 |||
      ((value >>> 16).setWidth 8).setWidth 32 <<< 16 |||
      ((value >>> 24).setWidth 8).setWidth 32 <<< 24 = value := by
  apply BitVec.eq_of_getLsbD_eq
  intro i bound
  simp only [BitVec.getLsbD_or, BitVec.getLsbD_shiftLeft, BitVec.getLsbD_setWidth,
    BitVec.getLsbD_ushiftRight]
  -- Exactly one of the four bytes covers bit `i`.
  grind

@[simp] theorem read16_write16 (value : UInt16) (rest : List UInt8) :
    read16 (write16 value ++ rest) = value := by
  simp only [read16, write16, low_byte16, List.cons_append, List.getD_cons_zero,
    List.getD_cons_succ]
  apply UInt16.eq_of_toBitVec_eq
  simp only [UInt16.toBitVec_or, UInt16.toBitVec_shiftLeft, UInt16.toBitVec_shiftRight,
    UInt8.toBitVec_toUInt16, UInt16.toBitVec_toUInt8]
  exact reassemble16 value.toBitVec

@[simp] theorem read32_write32 (value : UInt32) (rest : List UInt8) :
    read32 (write32 value ++ rest) = value := by
  simp only [read32, write32, low_byte32, List.cons_append, List.getD_cons_zero,
    List.getD_cons_succ]
  apply UInt32.eq_of_toBitVec_eq
  simp only [UInt32.toBitVec_or, UInt32.toBitVec_shiftLeft, UInt32.toBitVec_shiftRight,
    UInt8.toBitVec_toUInt32, UInt32.toBitVec_toUInt8]
  exact reassemble32 value.toBitVec

private theorem split16 (a b : BitVec 8) :
    (a.setWidth 16 ||| b.setWidth 16 <<< 8).setWidth 8 = a ∧
      ((a.setWidth 16 ||| b.setWidth 16 <<< 8) >>> 8).setWidth 8 = b := by
  constructor <;> apply BitVec.eq_of_getLsbD_eq <;> intro i bound <;>
    simp only [BitVec.getLsbD_or, BitVec.getLsbD_shiftLeft, BitVec.getLsbD_setWidth,
      BitVec.getLsbD_ushiftRight] <;>
    grind

private theorem split32 (a b c d : BitVec 8) :
    let word := a.setWidth 32 ||| b.setWidth 32 <<< 8 ||| c.setWidth 32 <<< 16 |||
      d.setWidth 32 <<< 24
    word.setWidth 8 = a ∧ (word >>> 8).setWidth 8 = b ∧ (word >>> 16).setWidth 8 = c ∧
      (word >>> 24).setWidth 8 = d := by
  refine ⟨?_, ?_, ?_, ?_⟩ <;> apply BitVec.eq_of_getLsbD_eq <;> intro i bound <;>
    simp only [BitVec.getLsbD_or, BitVec.getLsbD_shiftLeft, BitVec.getLsbD_setWidth,
      BitVec.getLsbD_ushiftRight] <;>
    grind

private theorem bytes_of_pair (a b : UInt8) :
    write16 (a.toUInt16 ||| (b.toUInt16 <<< 8)) = [a, b] := by
  obtain ⟨first, second⟩ := split16 a.toBitVec b.toBitVec
  simp only [write16, low_byte16, List.cons.injEq, and_true]
  exact ⟨UInt8.eq_of_toBitVec_eq first, UInt8.eq_of_toBitVec_eq second⟩

private theorem bytes_of_quad (a b c d : UInt8) :
    write32 (a.toUInt32 ||| (b.toUInt32 <<< 8) ||| (c.toUInt32 <<< 16) ||| (d.toUInt32 <<< 24)) =
      [a, b, c, d] := by
  obtain ⟨first, second, third, fourth⟩ :=
    split32 a.toBitVec b.toBitVec c.toBitVec d.toBitVec
  simp only [write32, low_byte32, List.cons.injEq, and_true]
  exact ⟨UInt8.eq_of_toBitVec_eq first, UInt8.eq_of_toBitVec_eq second,
    UInt8.eq_of_toBitVec_eq third, UInt8.eq_of_toBitVec_eq fourth⟩

theorem write16_read16 {bytes : List UInt8} (enough : 2 ≤ bytes.length) :
    write16 (read16 bytes) = bytes.take 2 := by
  match bytes, enough with
  | a :: b :: _, _ => simpa [read16] using bytes_of_pair a b

theorem write32_read32 {bytes : List UInt8} (enough : 4 ≤ bytes.length) :
    write32 (read32 bytes) = bytes.take 4 := by
  match bytes, enough with
  | a :: b :: c :: d :: _, _ => simpa [read32] using bytes_of_quad a b c d

end LittleEndian
