/-! The streaming CRC-32 of `crc32.c`. The table is the one `crc32_init` builds;
callers run after it, so the readiness flag of the source is not modelled. -/

set_option autoImplicit false

namespace ConfigWp

def crc32Poly : UInt32 := 0xEDB88320
def crc32Initial : UInt32 := 0xFFFFFFFF
def crc32Final : UInt32 := 0xFFFFFFFF

def crc32InitBit (c : UInt32) : UInt32 :=
  (c >>> 1) ^^^ (if c &&& 1 ≠ 0 then crc32Poly else 0)

/-- The entry `crc32_init` stores at index `i`: eight turns of the inner loop. -/
def crc32InitEntry (i : Nat) : UInt32 :=
  (List.range 8).foldl (fun c _ => crc32InitBit c) (UInt32.ofNat i)

/-- `s_table` after `crc32_init`. -/
def crc32Table : List UInt32 := (List.range 256).map crc32InitEntry

def crc32Start : UInt32 := crc32Initial

def crc32StepByte (state : UInt32) (byte : UInt8) : UInt32 :=
  crc32Table.getD ((state ^^^ byte.toUInt32) &&& 0xFF).toNat 0 ^^^ (state >>> 8)

def crc32Step (state : UInt32) (data : List UInt8) : UInt32 := data.foldl crc32StepByte state

def crc32End (state : UInt32) : UInt32 := state ^^^ crc32Final

def crc32Compute (data : List UInt8) : UInt32 := crc32End (crc32Step crc32Start data)

example : crc32Table.getD 1 0 = 0x77073096 := by decide +kernel

end ConfigWp
