import ConfigWp.Application.Crc32
import ConfigWp.Library.LittleEndian
import ConfigWp.Library.ShiftRegister
import Mathlib.Data.List.GetD

/-! The table of `crc32_init` holds eight turns of the shift register for each byte, so
`crc32_step` takes in the eight bits of a byte at once. -/

set_option autoImplicit false

namespace ConfigWp

open ShiftRegister

theorem crc32InitBit_toBitVec (c : UInt32) :
    (crc32InitBit c).toBitVec = shift crc32Poly.toBitVec c.toBitVec := by
  have low : (c &&& 1).toBitVec = (BitVec.ofBool (c.toBitVec.getLsbD 0)).setWidth 32 :=
    BitVec.and_one_eq_setWidth_ofBool_getLsbD
  have left : c &&& 1 ≠ 0 ↔ c.toBitVec.getLsbD 0 = true := by
    rw [ne_eq, ← UInt32.toBitVec_inj, low]
    cases c.toBitVec.getLsbD 0 <;> decide
  rw [crc32InitBit, shift, UInt32.toBitVec_xor, UInt32.toBitVec_shiftRight]
  simp only [left]
  cases c.toBitVec.getLsbD 0 <;> rfl

theorem crc32InitEntry_toBitVec (i : Nat) :
    (crc32InitEntry i).toBitVec = (shift crc32Poly.toBitVec)^[8] (BitVec.ofNat 32 i) := by
  have turns : ∀ n c, (crc32InitBit^[n] c).toBitVec =
      (shift crc32Poly.toBitVec)^[n] c.toBitVec := by
    intro n c
    exact Function.Semiconj.iterate_right (f := UInt32.toBitVec) crc32InitBit_toBitVec n c
  rw [crc32InitEntry, List.foldl_const, List.length_range, turns]
  rfl

private theorem low_mask (x : BitVec 32) : x &&& 0xFF#32 = (x.setWidth 8).setWidth 32 := by
  apply BitVec.eq_of_getLsbD_eq
  intro i inside
  have mask : (0xFF#32).getLsbD i = decide (i < 8) := by
    rw [BitVec.getLsbD_ofNat, decide_eq_true inside, Bool.true_and]
    exact Nat.testBit_two_pow_sub_one 8 i
  rw [BitVec.getLsbD_and, mask, BitVec.getLsbD_setWidth, BitVec.getLsbD_setWidth,
    decide_eq_true inside, Bool.true_and, Bool.and_comm]

/-- One step is the turns of the register that take in the bits of the byte. -/
theorem crc32StepByte_toBitVec (state : UInt32) (byte : UInt8) :
    (crc32StepByte state byte).toBitVec = run crc32Poly.toBitVec state.toBitVec (bits byte) := by
  have input : (state ^^^ byte.toUInt32).toBitVec =
      state.toBitVec ^^^ byte.toBitVec.setWidth 32 := rfl
  have low : ((state ^^^ byte.toUInt32) &&& 0xFF).toBitVec =
      ((state ^^^ byte.toUInt32).toBitVec.setWidth 8).setWidth 32 := low_mask _
  have inside : ((state ^^^ byte.toUInt32) &&& 0xFF).toNat < 256 := by
    have size := (state ^^^ byte.toUInt32).toBitVec.setWidth 8 |>.isLt
    rw [← UInt32.toNat_toBitVec, low, BitVec.toNat_setWidth_of_le (by decide)]
    exact size
  have entry : crc32Table.getD ((state ^^^ byte.toUInt32) &&& 0xFF).toNat 0 =
      crc32InitEntry ((state ^^^ byte.toUInt32) &&& 0xFF).toNat := by
    rw [crc32Table, List.getD_eq_getElem _ _ (by simpa using inside), List.getElem_map,
      List.getElem_range]
  have high : (state ^^^ byte.toUInt32).toBitVec >>> 8 = state.toBitVec >>> 8 := by
    have gone : byte.toBitVec.setWidth 32 >>> 8 = 0#32 := by
      apply BitVec.eq_of_getLsbD_eq
      intro i _
      rw [BitVec.getLsbD_ushiftRight, BitVec.getLsbD_setWidth,
        BitVec.getLsbD_of_ge byte.toBitVec _ (Nat.le_add_right 8 i), Bool.and_false,
        BitVec.getLsbD_zero]
    rw [input, BitVec.ushiftRight_xor_distrib, gone, BitVec.xor_zero]
  rw [run_bits _ (by decide), ← input, shifts_split, ← low, high, crc32StepByte, entry,
    UInt32.toBitVec_xor, crc32InitEntry_toBitVec, ← UInt32.toNat_toBitVec, BitVec.ofNat_toNat,
    BitVec.setWidth_eq, UInt32.toBitVec_shiftRight]
  rfl

theorem crc32Step_toBitVec (state : UInt32) (data : List UInt8) :
    (crc32Step state data).toBitVec =
      run crc32Poly.toBitVec state.toBitVec (bytesBits data) := by
  induction data generalizing state with
  | nil => rfl
  | cons byte data ih =>
      rw [bytesBits, List.flatMap_cons, run_append, ← crc32StepByte_toBitVec]
      exact ih _

theorem crc32Step_append (state : UInt32) (left right : List UInt8) :
    crc32Step state (left ++ right) = crc32Step (crc32Step state left) right :=
  List.foldl_append

/-- The definition of CRC-32, a bit at a time: reflected, with its initial value and
final XOR. -/
def crc32Bitwise (data : List UInt8) : UInt32 :=
  .ofBitVec (run 0xEDB88320#32 0xFFFFFFFF#32 (bytesBits data) ^^^ 0xFFFFFFFF#32)

theorem crc32Compute_bitwise (data : List UInt8) : crc32Compute data = crc32Bitwise data := by
  apply UInt32.eq_of_toBitVec_eq
  rw [crc32Compute, crc32End, UInt32.toBitVec_xor, crc32Step_toBitVec]
  rfl

/-- The streaming interface over any cut into chunks. -/
theorem crc32_chunks (chunks : List (List UInt8)) :
    crc32End (chunks.foldl crc32Step crc32Start) = crc32Compute chunks.flatten ∧
      crc32End (chunks.foldl crc32Step crc32Start) = crc32Bitwise chunks.flatten := by
  have streamed : ∀ state, chunks.foldl crc32Step state = crc32Step state chunks.flatten := by
    induction chunks with
    | nil => exact fun _ => rfl
    | cons chunk chunks ih =>
        intro state
        rw [List.foldl_cons, ih, List.flatten_cons, crc32Step_append]
  rw [streamed, ← crc32Compute_bitwise]
  exact ⟨rfl, rfl⟩

/-- A burst of at most four bytes changes the CRC, from any state and whatever follows. -/
theorem crc32Step_ne_of_burst {left right : List UInt8} (same : left.length = right.length)
    (short : left.length ≤ 4) (differ : left ≠ right) (state : UInt32)
    (before after : List UInt8) :
    crc32Step state (before ++ left ++ after) ≠ crc32Step state (before ++ right ++ after) := by
  intro agree
  have states := congrArg UInt32.toBitVec agree
  simp only [crc32Step_toBitVec, bytesBits_append] at states
  refine run_ne_of_burst (by decide) ?_ ?_ ?_ _ _ _ states
  · rw [length_bytesBits, length_bytesBits, same]
  · rw [length_bytesBits]
    omega
  · exact fun bits => differ (bytesBits_injective bits)

/-! Codewords: a message with its checksum behind it. -/

/-- The bits of four bytes are those of the word that they are read as. -/
theorem word_bytesBits (bytes : List UInt8) :
    word 32 (bytesBits bytes) = (LittleEndian.read32 bytes).toBitVec := by
  apply BitVec.eq_of_getLsbD_eq
  intro i inside
  rw [getLsbD_word, decide_eq_true inside, Bool.true_and, getD_bytesBits]
  simp only [LittleEndian.read32, UInt32.toBitVec_or, UInt32.toBitVec_shiftLeft,
    UInt8.toBitVec_toUInt32, BitVec.getLsbD_or, BitVec.getLsbD_setWidth]
  interval_cases i <;> simp

/-- What the register holds behind a message and its checksum. -/
def crc32Residue : BitVec 32 := (shift crc32Poly.toBitVec)^[32] 0xFFFFFFFF#32

theorem crc32_residue {data stored : List UInt8} (four : stored.length = 4)
    (checks : crc32Compute data = LittleEndian.read32 stored) :
    run crc32Poly.toBitVec crc32Start.toBitVec (bytesBits (data ++ stored)) = crc32Residue := by
  have size : (bytesBits stored).length = 32 := by rw [length_bytesBits, four]
  have register : (crc32Step crc32Start data).toBitVec ^^^ (LittleEndian.read32 stored).toBitVec =
      0xFFFFFFFF#32 := by
    rw [← checks, crc32Compute, crc32End, UInt32.toBitVec_xor, ← BitVec.xor_assoc,
      BitVec.xor_self, BitVec.zero_xor]
    rfl
  have message := crc32Step_toBitVec crc32Start data
  rw [bytesBits_append, run_append, ← message, run_word _ size.le, word_bytesBits, register, size,
    crc32Residue]

/-- The polynomial does not come back within the bits of a codeword of 2048 bytes. -/
theorem crc32_apart {n : Nat} (positive : 0 < n) (inside : n ≤ 8 * 2048) :
    (shift crc32Poly.toBitVec)^[n] crc32Poly.toBitVec ≠ crc32Poly.toBitVec := by
  have away : staysAway crc32Poly.toBitVec (8 * 2048) crc32Poly.toBitVec = true := by
    decide +kernel
  exact staysAway_sound _ away positive inside

/-- Two messages with their checksums differ in at least three bits. -/
theorem crc32_distance {data data' stored stored' : List UInt8} (short : data.length ≤ 2044)
    (same : data.length = data'.length) (four : stored.length = 4) (four' : stored'.length = 4)
    (checks : crc32Compute data = LittleEndian.read32 stored)
    (checks' : crc32Compute data' = LittleEndian.read32 stored')
    (some : 0 < flips (bytesBits (data ++ stored)) (bytesBits (data' ++ stored'))) :
    3 ≤ flips (bytesBits (data ++ stored)) (bytesBits (data' ++ stored')) := by
  by_contra few
  have sizes : (bytesBits (data ++ stored)).length = (bytesBits (data' ++ stored')).length := by
    rw [length_bytesBits, length_bytesBits, List.length_append, List.length_append, same, four,
      four']
  refine run_ne_of_flips (by decide) sizes (fun n positive inside => ?_) some (by omega) _
    ((crc32_residue four checks).trans (crc32_residue four' checks').symm)
  rw [length_bytesBits, List.length_append, four] at inside
  exact crc32_apart positive (by omega)

end ConfigWp
