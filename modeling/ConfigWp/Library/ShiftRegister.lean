import Mathlib.Data.List.GetD
import Mathlib.Logic.Function.Iterate

/-! Reflected shift registers over an arbitrary width and polynomial. Turning the
register is linear, so several input bits may be added at once, before the turns that
take them in; with the top bit of the polynomial set no turn loses information, so a
burst no longer than the register always leaves a different state behind. -/

set_option autoImplicit false

namespace ShiftRegister

variable {w : Nat} (poly : BitVec w)

/-- A turn without input: the low bit leaves, and brings in the polynomial if it was set. -/
def shift (state : BitVec w) : BitVec w :=
  (state >>> 1) ^^^ (if state.getLsbD 0 then poly else 0#w)

/-- A turn with one input bit, which is added to the bit that leaves. -/
def feed (state : BitVec w) (bit : Bool) : BitVec w :=
  (state >>> 1) ^^^ (if state.getLsbD 0 ^^ bit then poly else 0#w)

def run (state : BitVec w) (bits : List Bool) : BitVec w := bits.foldl (feed poly) state

@[simp] theorem run_nil (state : BitVec w) : run poly state [] = state := rfl

@[simp] theorem run_cons (state : BitVec w) (bit : Bool) (bits : List Bool) :
    run poly state (bit :: bits) = run poly (feed poly state bit) bits := rfl

theorem run_append (state : BitVec w) (left right : List Bool) :
    run poly state (left ++ right) = run poly (run poly state left) right :=
  List.foldl_append

/-! Linearity. -/

private theorem choose_xor (left right : Bool) :
    (if left ^^ right then poly else 0#w) =
      (if left then poly else 0#w) ^^^ (if right then poly else 0#w) := by
  cases left <;> cases right <;> simp

theorem shift_xor (left right : BitVec w) :
    shift poly (left ^^^ right) = shift poly left ^^^ shift poly right := by
  rw [shift, shift, shift, BitVec.ushiftRight_xor_distrib, BitVec.getLsbD_xor, choose_xor]
  ac_rfl

theorem shifts_xor (n : Nat) (left right : BitVec w) :
    (shift poly)^[n] (left ^^^ right) = (shift poly)^[n] left ^^^ (shift poly)^[n] right := by
  induction n generalizing left right with
  | zero => rfl
  | succ n ih => rw [Function.iterate_succ_apply, shift_xor, ih]; rfl

/-- While only zero bits leave, turning is shifting. -/
theorem shifts_of_clear {n : Nat} {state : BitVec w}
    (clear : ∀ i < n, state.getLsbD i = false) : (shift poly)^[n] state = state >>> n := by
  induction n with
  | zero => rfl
  | succ n ih =>
      have low : (state >>> n).getLsbD 0 = false := by
        rw [BitVec.getLsbD_ushiftRight]
        exact clear n (Nat.lt_succ_self n)
      rw [Function.iterate_succ_apply', ih fun i below => clear i (Nat.lt_succ_of_lt below), shift,
        low, BitVec.shiftRight_add]
      simp

/-- The low bits take their turns and the others move down. -/
theorem shifts_split (n : Nat) (state : BitVec w) :
    (shift poly)^[n] state =
      (shift poly)^[n] ((state.setWidth n).setWidth w) ^^^ (state >>> n) := by
  have parts : state = (state.setWidth n).setWidth w ^^^ (state >>> n) <<< n := by
    apply BitVec.eq_of_getLsbD_eq
    intro i inside
    simp only [BitVec.getLsbD_xor, BitVec.getLsbD_setWidth, BitVec.getLsbD_shiftLeft,
      BitVec.getLsbD_ushiftRight]
    by_cases low : i < n
    · simp [inside, low]
    · simp [inside, low, Nat.add_sub_cancel' (Nat.not_lt.mp low)]
  have clear : ∀ i < n, ((state >>> n) <<< n).getLsbD i = false := by
    intro i low
    rw [BitVec.getLsbD_shiftLeft, decide_eq_true low]
    simp
  have back : ((state >>> n) <<< n) >>> n = state >>> n := by
    apply BitVec.eq_of_getLsbD_eq
    intro i inside
    simp only [BitVec.getLsbD_ushiftRight, BitVec.getLsbD_shiftLeft]
    by_cases high : n + i < w
    · simp [high]
    · simp [high, BitVec.getLsbD_of_ge state (n + i) (Nat.not_lt.mp high)]
  conv => lhs; rw [parts, shifts_xor, shifts_of_clear poly clear, back]

/-! Several input bits at once. -/

/-- Bits as a word, the first one lowest. -/
def word (w : Nat) (bits : List Bool) : BitVec w := (BitVec.ofBoolListLE bits).setWidth w

theorem getLsbD_word (bits : List Bool) (i : Nat) :
    (word w bits).getLsbD i = (decide (i < w) && bits.getD i false) := by
  rw [word, BitVec.getLsbD_setWidth, BitVec.getLsbD_ofBoolListLE]

theorem word_nil : word w [] = 0#w := by
  apply BitVec.eq_of_getLsbD_eq
  intro i _
  rw [getLsbD_word, List.getD_nil, Bool.and_false, BitVec.getLsbD_zero]

theorem word_injective {left right : List Bool} (same : left.length = right.length)
    (short : left.length ≤ w) (words : word w left = word w right) : left = right := by
  refine List.ext_getElem same fun i inLeft inRight => ?_
  have bit := congrArg (BitVec.getLsbD · i) words
  simp only [getLsbD_word, decide_eq_true (Nat.lt_of_lt_of_le inLeft short), Bool.true_and] at bit
  rwa [List.getD_eq_getElem _ _ inLeft, List.getD_eq_getElem _ _ inRight] at bit

theorem feed_xor_word {bits : List Bool} (short : bits.length < w) (state : BitVec w) (bit : Bool) :
    feed poly state bit ^^^ word w bits = shift poly (state ^^^ word w (bit :: bits)) := by
  have low : (word w (bit :: bits)).getLsbD 0 = bit := by
    rw [getLsbD_word, decide_eq_true (Nat.zero_lt_of_lt short)]
    rfl
  have high : word w (bit :: bits) >>> 1 = word w bits := by
    apply BitVec.eq_of_getLsbD_eq
    intro i inside
    rw [BitVec.getLsbD_ushiftRight, getLsbD_word, getLsbD_word, Nat.add_comm,
      List.getD_cons_succ, decide_eq_true inside]
    by_cases last : i + 1 < w
    · rw [decide_eq_true last]
    · have past : bits.length ≤ i := by omega
      rw [List.getD_eq_default _ _ past, Bool.and_false, Bool.and_false]
  rw [feed, shift, BitVec.getLsbD_xor, low, BitVec.ushiftRight_xor_distrib, high]
  ac_rfl

theorem run_word {bits : List Bool} (short : bits.length ≤ w) (state : BitVec w) :
    run poly state bits = (shift poly)^[bits.length] (state ^^^ word w bits) := by
  induction bits generalizing state with
  | nil =>
      rw [word_nil, BitVec.xor_zero]
      rfl
  | cons bit bits ih =>
      rw [run_cons, ih (Nat.le_of_succ_le short), feed_xor_word poly short, List.length_cons,
        Function.iterate_succ_apply]

/-! Bursts. -/

section Bursts

variable {poly} (top : poly.getLsbD (w - 1) = true)

include top

theorem shift_injective : Function.Injective (shift poly) := by
  intro left right same
  have gone : shift poly (left ^^^ right) = 0#w := by rw [shift_xor, same, BitVec.xor_self]
  have past : ((left ^^^ right) >>> 1).getLsbD (w - 1) = false := by
    rw [BitVec.getLsbD_ushiftRight]
    exact BitVec.getLsbD_of_ge _ _ (by omega)
  rw [shift] at gone
  cases low : (left ^^^ right).getLsbD 0 with
  | true =>
      have bit := congrArg (BitVec.getLsbD · (w - 1)) gone
      simp [low, past, top] at bit
  | false =>
      rw [low, if_neg (by decide), BitVec.xor_zero] at gone
      refine BitVec.xor_eq_zero_iff.mp (BitVec.eq_of_getLsbD_eq fun i inside => ?_)
      cases i with
      | zero => rw [low, BitVec.getLsbD_zero]
      | succ i =>
          have bit := congrArg (BitVec.getLsbD · i) gone
          rwa [BitVec.getLsbD_ushiftRight, BitVec.getLsbD_zero, Nat.add_comm,
            ← BitVec.getLsbD_zero] at bit

theorem feed_injective (bit : Bool) : Function.Injective (feed poly · bit) := by
  have positive : 0 < w := by
    rcases Nat.eq_zero_or_pos w with rfl | positive
    · rw [BitVec.getLsbD_of_ge _ _ (Nat.zero_le _)] at top
      cases top
    · exact positive
  have taken : ∀ state, feed poly state bit = shift poly (state ^^^ word w [bit]) := by
    intro state
    have turn := @feed_xor_word _ poly [] positive state bit
    rw [word_nil, BitVec.xor_zero] at turn
    exact turn
  intro left right same
  have inputs := shift_injective top ((taken left).symm.trans (same.trans (taken right)))
  exact (BitVec.xor_left_inj _).mp inputs

theorem run_injective (bits : List Bool) : Function.Injective (run poly · bits) := by
  induction bits with
  | nil => exact fun _ _ same => same
  | cons bit bits ih => exact fun _ _ same => feed_injective top bit (ih same)

/-- Two streams that differ in a burst no longer than the register leave different
states, from any state and whatever follows. -/
theorem run_ne_of_burst {left right : List Bool} (same : left.length = right.length)
    (short : left.length ≤ w) (differ : left ≠ right) (state : BitVec w)
    (before after : List Bool) :
    run poly state (before ++ left ++ after) ≠ run poly state (before ++ right ++ after) := by
  intro agree
  simp only [run_append] at agree
  have middle := run_injective top after agree
  simp only [run_word poly short, run_word poly (Nat.le_trans (Nat.le_of_eq same.symm) short),
    same] at middle
  have words := (shift_injective top).iterate _ middle
  exact differ (word_injective same short ((BitVec.xor_right_inj _).mp words))

end Bursts

/-! Flipped bits. -/

/-- How many bits two streams of one length differ in. -/
def flips (left right : List Bool) : Nat := (List.zipWith xor left right).count true

theorem flips_append {left right left' right' : List Bool} (same : left.length = right.length) :
    flips (left ++ left') (right ++ right') = flips left right + flips left' right' := by
  rw [flips, List.zipWith_append same, List.count_append]
  rfl

theorem flips_eq_zero {left right : List Bool} (same : left.length = right.length)
    (none : flips left right = 0) : left = right := by
  induction left generalizing right with
  | nil => exact (List.length_eq_zero_iff.mp same.symm).symm
  | cons bit left ih =>
      cases right with
      | nil => cases same
      | cons other right =>
          rw [flips, List.zipWith_cons_cons, List.count_cons, Nat.add_eq_zero_iff] at none
          rw [ih (Nat.succ.inj same) none.1]
          cases bit <;> cases other <;> first | rfl | exact absurd none.2 (by decide)

theorem feed_xor (left right : BitVec w) (bit other : Bool) :
    feed poly (left ^^^ right) (bit ^^ other) = feed poly left bit ^^^ feed poly right other := by
  have low : ((left.getLsbD 0 ^^ right.getLsbD 0) ^^ (bit ^^ other)) =
      ((left.getLsbD 0 ^^ bit) ^^ (right.getLsbD 0 ^^ other)) := by
    cases left.getLsbD 0 <;> cases right.getLsbD 0 <;> cases bit <;> cases other <;> rfl
  rw [feed, feed, feed, BitVec.ushiftRight_xor_distrib, BitVec.getLsbD_xor, low, choose_xor]
  ac_rfl

/-- The difference of two runs is the run of the difference. -/
theorem run_xor {left right : List Bool} (same : left.length = right.length)
    (state other : BitVec w) :
    run poly state left ^^^ run poly other right =
      run poly (state ^^^ other) (List.zipWith xor left right) := by
  induction left generalizing right state other with
  | nil =>
      rw [List.length_eq_zero_iff.mp same.symm]
      rfl
  | cons bit left ih =>
      cases right with
      | nil => cases same
      | cons next right =>
          rw [run_cons, run_cons, ih (Nat.succ.inj same), List.zipWith_cons_cons, run_cons,
            ← feed_xor]

/-- The state turns as it would without input, and the input as it would from zero. -/
theorem run_split (state : BitVec w) (bits : List Bool) :
    run poly state bits = (shift poly)^[bits.length] state ^^^ run poly 0#w bits := by
  induction bits generalizing state with
  | nil => exact (BitVec.xor_zero).symm
  | cons bit bits ih =>
      have first : feed poly state bit = shift poly state ^^^ feed poly 0#w bit := by
        have turn := feed_xor poly state 0#w false bit
        rw [BitVec.xor_zero, Bool.false_xor] at turn
        rw [turn, feed, Bool.xor_false, shift]
      rw [run_cons, run_cons, ih, ih (feed poly 0#w bit), first, shifts_xor, List.length_cons,
        Function.iterate_succ_apply, BitVec.xor_assoc]

theorem feed_zero (bit : Bool) : feed poly 0#w bit = if bit then poly else 0#w := by
  rw [feed, BitVec.getLsbD_zero, Bool.false_xor, BitVec.zero_ushiftRight, BitVec.zero_xor]

theorem run_zero {errors : List Bool} (none : errors.count true = 0) :
    run poly 0#w errors = 0#w := by
  induction errors with
  | nil => rfl
  | cons error errors ih =>
      rw [List.count_cons, Nat.add_eq_zero_iff] at none
      cases error with
      | false =>
          rw [run_cons, feed_zero]
          exact ih none.1
      | true => exact absurd none.2 (by decide)

theorem run_single {errors : List Bool} (one : errors.count true = 1) :
    ∃ n < errors.length, run poly 0#w errors = (shift poly)^[n] poly := by
  induction errors with
  | nil => cases one
  | cons error errors ih =>
      rw [run_cons, feed_zero]
      cases error with
      | false =>
          obtain ⟨n, inside, reached⟩ := ih one
          exact ⟨n, Nat.lt_succ_of_lt inside, reached⟩
      | true =>
          rw [List.count_cons_self] at one
          refine ⟨errors.length, Nat.lt_succ_self _, ?_⟩
          rw [if_pos rfl, run_split, run_zero poly (Nat.succ.inj one), BitVec.xor_zero]

theorem run_double {errors : List Bool} (two : errors.count true = 2) :
    ∃ n m, n < m ∧ m < errors.length ∧
      run poly 0#w errors = (shift poly)^[m] poly ^^^ (shift poly)^[n] poly := by
  induction errors with
  | nil => cases two
  | cons error errors ih =>
      rw [run_cons, feed_zero]
      cases error with
      | false =>
          obtain ⟨n, m, order, inside, reached⟩ := ih two
          exact ⟨n, m, order, Nat.lt_succ_of_lt inside, reached⟩
      | true =>
          rw [List.count_cons_self] at two
          obtain ⟨n, inside, reached⟩ := run_single poly (Nat.succ.inj two)
          refine ⟨n, errors.length, inside, Nat.lt_succ_self _, ?_⟩
          rw [if_pos rfl, run_split, reached]

/-- The turns of a state up to a bound, none of which is the polynomial. -/
def staysAway : Nat → BitVec w → Bool
  | 0, _ => true
  | n + 1, state => shift poly state != poly && staysAway n (shift poly state)

theorem staysAway_sound {n : Nat} {state : BitVec w} (away : staysAway poly n state = true)
    {k : Nat} (positive : 0 < k) (inside : k ≤ n) : (shift poly)^[k] state ≠ poly := by
  induction n generalizing state k with
  | zero => omega
  | succ n ih =>
      rw [staysAway, Bool.and_eq_true, bne_iff_ne] at away
      cases k with
      | zero => exact absurd positive (Nat.lt_irrefl 0)
      | succ k =>
          rw [Function.iterate_succ_apply]
          rcases Nat.eq_zero_or_pos k with rfl | more
          · exact away.1
          · exact ih away.2 more (Nat.le_of_succ_le_succ inside)

section Flips

variable {poly} (top : poly.getLsbD (w - 1) = true)

include top

/-- Streams that differ in one or two bits leave different states, if the polynomial does
not come back within their length. -/
theorem run_ne_of_flips {left right : List Bool} (same : left.length = right.length)
    (apart : ∀ n, 0 < n → n < left.length → (shift poly)^[n] poly ≠ poly)
    (some : 0 < flips left right) (few : flips left right ≤ 2) (state : BitVec w) :
    run poly state left ≠ run poly state right := by
  intro agree
  have gone : run poly 0#w (List.zipWith xor left right) = 0#w := by
    have difference := run_xor poly same state state
    rw [agree, BitVec.xor_self, BitVec.xor_self] at difference
    exact difference.symm
  have size : (List.zipWith xor left right).length = left.length := by
    rw [List.length_zipWith, ← same, Nat.min_self]
  rcases Nat.lt_or_ge (flips left right) 2 with less | two
  · obtain ⟨n, -, reached⟩ := @run_single w poly _ (show flips left right = 1 by omega)
    have still : (shift poly)^[n] 0#w = 0#w := by
      refine Function.iterate_fixed ?_ n
      rw [shift, BitVec.getLsbD_zero, if_neg Bool.false_ne_true, BitVec.xor_zero,
        BitVec.zero_ushiftRight]
    have zero := (shift_injective top).iterate n ((reached.symm.trans gone).trans still.symm)
    rw [zero, BitVec.getLsbD_zero] at top
    cases top
  · obtain ⟨n, m, order, inside, reached⟩ :=
      @run_double w poly _ (show flips left right = 2 by omega)
    rw [gone, eq_comm, BitVec.xor_eq_zero_iff] at reached
    obtain ⟨k, rfl⟩ := Nat.exists_eq_add_of_le (Nat.le_of_lt order)
    rw [Function.iterate_add_apply] at reached
    have back := (shift_injective top).iterate n reached
    exact apart k (by omega) (by omega) back

end Flips

/-! Bytes. -/

def bits (byte : UInt8) : List Bool := (List.range 8).map byte.toBitVec.getLsbD

def bytesBits (bytes : List UInt8) : List Bool := bytes.flatMap bits

theorem length_bits (byte : UInt8) : (bits byte).length = 8 := by
  rw [bits, List.length_map, List.length_range]

theorem getD_bits (byte : UInt8) (i : Nat) :
    (bits byte).getD i false = byte.toBitVec.getLsbD i := by
  by_cases inside : i < 8
  · rw [List.getD_eq_getElem _ _ (by rw [length_bits]; exact inside)]
    simp only [bits, List.getElem_map, List.getElem_range]
  · rw [List.getD_eq_default _ _ (by rw [length_bits]; omega),
      BitVec.getLsbD_of_ge _ _ (Nat.not_lt.mp inside)]

theorem word_bits (byte : UInt8) : word w (bits byte) = byte.toBitVec.setWidth w := by
  apply BitVec.eq_of_getLsbD_eq
  intro i inside
  rw [getLsbD_word, getD_bits, BitVec.getLsbD_setWidth]

theorem run_bits (wide : 8 ≤ w) (state : BitVec w) (byte : UInt8) :
    run poly state (bits byte) = (shift poly)^[8] (state ^^^ byte.toBitVec.setWidth w) := by
  rw [run_word poly (by rw [length_bits]; exact wide), length_bits, word_bits]

theorem length_bytesBits (bytes : List UInt8) : (bytesBits bytes).length = 8 * bytes.length := by
  induction bytes with
  | nil => rfl
  | cons byte bytes ih =>
      rw [bytesBits, List.flatMap_cons, List.length_append, length_bits, ← bytesBits, ih,
        List.length_cons]
      omega

theorem getD_bytesBits (bytes : List UInt8) (i : Nat) :
    (bytesBits bytes).getD i false = (bytes.getD (i / 8) 0).toBitVec.getLsbD (i % 8) := by
  induction bytes generalizing i with
  | nil => simp [bytesBits]
  | cons byte bytes ih =>
      rw [bytesBits, List.flatMap_cons, ← bytesBits]
      by_cases first : i < 8
      · rw [List.getD_append _ _ _ _ (by rw [length_bits]; exact first), getD_bits,
          Nat.div_eq_of_lt first, Nat.mod_eq_of_lt first]
        rfl
      · have behind : 8 ≤ i := Nat.not_lt.mp first
        have next : i / 8 = (i - 8) / 8 + 1 := by omega
        have same : i % 8 = (i - 8) % 8 := by omega
        rw [List.getD_append_right _ _ _ _ (by rw [length_bits]; exact behind), length_bits, ih,
          next, same, List.getD_cons_succ]

theorem bytesBits_append (left right : List UInt8) :
    bytesBits (left ++ right) = bytesBits left ++ bytesBits right :=
  List.flatMap_append

theorem flips_bytesBits_append {left right left' right' : List UInt8}
    (same : left.length = right.length) :
    flips (bytesBits (left ++ left')) (bytesBits (right ++ right')) =
      flips (bytesBits left) (bytesBits right) + flips (bytesBits left') (bytesBits right') := by
  rw [bytesBits_append, bytesBits_append, flips_append]
  rw [length_bytesBits, length_bytesBits, same]

theorem bytesBits_injective : Function.Injective bytesBits := by
  intro left
  induction left with
  | nil =>
      intro right same
      have lengths := congrArg List.length same
      rw [length_bytesBits, length_bytesBits, List.length_nil] at lengths
      exact (List.length_eq_zero_iff.mp (by omega)).symm
  | cons byte left ih =>
      intro right same
      cases right with
      | nil =>
          have lengths := congrArg List.length same
          simp [length_bytesBits] at lengths
      | cons other right =>
          rw [bytesBits, bytesBits, List.flatMap_cons, List.flatMap_cons] at same
          obtain ⟨first, rest⟩ := List.append_inj same (by rw [length_bits, length_bits])
          have bytes : byte = other := by
            refine UInt8.eq_of_toBitVec_eq (BitVec.eq_of_getLsbD_eq fun i _ => ?_)
            rw [← getD_bits, ← getD_bits, first]
          rw [bytes, ih rest]

theorem flips_bytesBits_pos {left right : List UInt8} (same : left.length = right.length)
    (differ : left ≠ right) : 0 < flips (bytesBits left) (bytesBits right) := by
  refine Nat.pos_of_ne_zero fun none => differ (bytesBits_injective (flips_eq_zero ?_ none))
  rw [length_bytesBits, length_bytesBits, same]

end ShiftRegister
