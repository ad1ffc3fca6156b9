import Mathlib.Algebra.Ring.Int.Defs
import Mathlib.Data.List.Basic

/-! Parsed JSON documents, as far as `config_json.c` looks at them through its
JSON library, and the conversions of C from a double to an integer. A number is
the exact value of the double it was parsed to. An infinite double behaves as any
number beyond the finite ones: it fails every range check of the source. -/

set_option autoImplicit false

namespace ConfigWp

inductive Json where
  | null
  | bool (value : Bool)
  | number (valuedouble : Rat)
  | string (valuestring : List UInt8)
  | array (items : List Json)
  | object (members : List (List UInt8 × Json))

/-- The characters of an ASCII literal. -/
def ascii (text : String) : List UInt8 := text.toList.map fun char => UInt8.ofNat char.toNat

/-- The part of a buffer that `strlen` and `strcmp` see. -/
def cString (bytes : List UInt8) : List UInt8 := bytes.takeWhile (· ≠ 0)

def strEq (bytes : List UInt8) (text : String) : Bool := cString bytes == ascii text

def cJsonGetObjectItemCaseSensitive (object : Json) (name : String) : Option Json :=
  match object with
  | .object members => (members.find? fun member => strEq member.1 name).map Prod.snd
  | _ => none

/-- The value of a C conversion to an integer type that can hold it: the fraction is
dropped. -/
def truncate (value : Rat) : Int := value.num.tdiv value.den

theorem truncate_intCast (value : Int) : truncate (value : Rat) = value := by
  simp [truncate]

theorem truncate_neg (value : Rat) : truncate (-value) = -truncate value := by
  rw [truncate, truncate, Rat.neg_num, Rat.neg_den, Int.neg_tdiv]

theorem truncate_of_nonneg {value : Rat} (nonneg : 0 ≤ value) : truncate value = value.floor := by
  rw [truncate, Rat.floor_def, Int.tdiv_eq_ediv_of_nonneg (Rat.num_nonneg.mpr nonneg)]

theorem truncate_of_nonpos {value : Rat} (nonpos : value ≤ 0) : truncate value = value.ceil := by
  have opposite := truncate_of_nonneg (Rat.neg_le_neg nonpos)
  rw [truncate_neg] at opposite
  rw [Rat.ceil_eq_neg_floor_neg, ← opposite, Int.neg_neg]

/-- Dropping the fraction crosses no integer. -/
theorem le_truncate {value : Rat} {bound : Int} (above : (bound : Rat) ≤ value) :
    bound ≤ truncate value := by
  rcases Rat.le_total (a := 0) (b := value) with nonneg | nonpos
  · rw [truncate_of_nonneg nonneg]
    exact Rat.le_floor_iff.mpr above
  · rw [truncate_of_nonpos nonpos]
    have rounded := Rat.le_trans above (Rat.le_ceil (x := value))
    exact_mod_cast rounded

theorem truncate_le {value : Rat} {bound : Int} (below : value ≤ (bound : Rat)) :
    truncate value ≤ bound := by
  have opposite : ((-bound : Int) : Rat) ≤ -value := by
    rw [Rat.intCast_neg]
    exact Rat.neg_le_neg below
  have crossed := le_truncate opposite
  rw [truncate_neg] at crossed
  omega

/-- `(int)value`. C leaves the conversion undefined for a value that does not fit,
so what it gives there is an input. -/
def toInt (undefined : Rat → Int32) (value : Rat) : Int32 :=
  if -2 ^ 31 ≤ truncate value ∧ truncate value < 2 ^ 31 then Int32.ofInt (truncate value)
  else undefined value

end ConfigWp
