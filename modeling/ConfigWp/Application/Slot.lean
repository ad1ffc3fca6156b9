import ConfigWp.Application.Crc32
import ConfigWp.Drivers.Storage
import ConfigWp.Library.DoubleBuffer
import ConfigWp.Library.LittleEndian

/-! The A/B slot protocol of `config_slot.c`: the slot header and its two checks,
the reader that picks the active slot and the writer that replaces the other
one. Faults of the medium are inputs, one for each storage access. -/

set_option autoImplicit false

namespace ConfigWp

open LittleEndian

/-- The errors of `slot_status_t`; `SLOT_OK` is the `ok` of `Except`. -/
inductive SlotStatus where
  | errNoValid
  | errTooLarge
  | errStorage
  | errBuf
  deriving DecidableEq, Repr

abbrev SlotId := DoubleBuffer.Side

def slotPayloadMaxBytes : Nat := 2028
def slotHeaderBytes : Nat := 20
def slotTotalBytes : Nat := slotHeaderBytes + slotPayloadMaxBytes

def slotMagic : UInt32 := 0xC0FC0FCA
def slotFormatVer : UInt16 := 2

def slotOffset : SlotId → Nat
  | .a => 0
  | .b => slotTotalBytes

def slotPayloadOffset (id : SlotId) : Nat := slotOffset id + slotHeaderBytes

structure SlotHeader where
  magic : UInt32
  formatVer : UInt16
  flags : UInt16
  seq : UInt32
  length : UInt32
  crc32 : UInt32
  deriving DecidableEq, Repr

namespace SlotHeader

def covered (hdr : SlotHeader) : List UInt8 :=
  write32 hdr.magic ++ write16 hdr.formatVer ++ write16 hdr.flags ++ write32 hdr.seq ++
    write32 hdr.length

def toBytes (hdr : SlotHeader) : List UInt8 := hdr.covered ++ write32 hdr.crc32

def ofBytes (bytes : List UInt8) : SlotHeader where
  magic := read32 bytes
  formatVer := read16 (bytes.drop 4)
  flags := read16 (bytes.drop 6)
  seq := read32 (bytes.drop 8)
  length := read32 (bytes.drop 12)
  crc32 := read32 (bytes.drop 16)

end SlotHeader

/-- Which reads of a scan fail: each slot's header, each slot's payload, and the
second read of the winner's payload. -/
structure SlotReadFaults where
  header : SlotId → Bool
  payload : SlotId → Bool
  winner : Bool

/-- What becomes of the storage accesses of a write: the two header reads, then
the payload and the header written. -/
structure SlotWriteFaults where
  header : SlotId → Bool
  payloadWrite : WriteOutcome
  headerWrite : WriteOutcome

def SlotReadFaults.none : SlotReadFaults := ⟨fun _ => false, fun _ => false, false⟩

def SlotWriteFaults.none : SlotWriteFaults := ⟨fun _ => false, .complete, .complete⟩

def slotReadHeader (fails : Bool) (storage : Storage) (id : SlotId) : Option SlotHeader :=
  match storageReadFaulty fails storage (slotOffset id) slotHeaderBytes with
  | .ok bytes => some (SlotHeader.ofBytes bytes)
  | .error _ => none

def slotHeaderLooksSane (hdr : SlotHeader) : Bool :=
  if hdr.magic ≠ slotMagic then false
  else if hdr.formatVer ≠ slotFormatVer then false
  else if hdr.flags ≠ 0 then false
  else if hdr.length.toNat > slotPayloadMaxBytes then false
  else true

def slotCrc (hdr : SlotHeader) (payload : List UInt8) : UInt32 :=
  crc32End (crc32Step (crc32Step crc32Start hdr.covered) payload)

structure SlotCheck where
  valid : Bool
  storageError : Bool
  buf : List UInt8

/-- `slot_validate_full`. The buffer is the caller's scratch space: its length is
the capacity, and a payload that was read stays in it whatever the verdict. -/
def slotValidateFull (fails : Bool) (storage : Storage) (id : SlotId) (hdr : SlotHeader)
    (buf : List UInt8) : SlotCheck :=
  if !slotHeaderLooksSane hdr then ⟨false, false, buf⟩
  else if hdr.length.toNat > buf.length then ⟨false, false, buf⟩
  else
    match storageReadFaulty fails storage (slotPayloadOffset id) hdr.length.toNat with
    | .error _ => ⟨false, true, buf⟩
    | .ok payload =>
        ⟨slotCrc hdr payload == hdr.crc32, false, Splice.overwrite buf 0 payload⟩

/-- The locals of the loop in `slot_pick_active`: the headers of the slots found
valid so far, whether a read failed, and the caller's buffer. -/
structure SlotScan where
  valid : SlotId → Option SlotHeader
  storageError : Bool
  buf : List UInt8

def slotScanStep (faults : SlotReadFaults) (storage : Storage) (scan : SlotScan) (id : SlotId) :
    SlotScan :=
  match slotReadHeader (faults.header id) storage id with
  | none => { scan with storageError := true }
  | some hdr =>
      let check := slotValidateFull (faults.payload id) storage id hdr scan.buf
      { valid := Function.update scan.valid id (if check.valid then some hdr else none)
        storageError := scan.storageError || check.storageError
        buf := check.buf }

def slotScan (faults : SlotReadFaults) (storage : Storage) (buf : List UInt8) : SlotScan :=
  ([.a, .b] : List SlotId).foldl (slotScanStep faults storage) ⟨fun _ => none, false, buf⟩

def slotScanWinner (scan : SlotScan) : Option (SlotId × SlotHeader) :=
  match scan.valid .a, scan.valid .b with
  | some left, some right => if left.seq ≥ right.seq then some (.a, left) else some (.b, right)
  | some left, none => some (.a, left)
  | none, some right => some (.b, right)
  | none, none => none

/-- `slot_pick_active`: the active slot and its payload length, and the caller's
buffer as the call leaves it. -/
def slotPickActive (faults : SlotReadFaults) (storage : Storage) (buf : List UInt8) :
    Except SlotStatus (SlotId × Nat) × List UInt8 :=
  if buf.length < slotPayloadMaxBytes then (.error .errBuf, buf)
  else
    let scan := slotScan faults storage buf
    match slotScanWinner scan with
    | none => (.error (if scan.storageError then .errStorage else .errNoValid), scan.buf)
    | some (winner, hdr) =>
        match storageReadFaulty faults.winner storage (slotPayloadOffset winner)
            hdr.length.toNat with
        | .error _ => (.error .errStorage, scan.buf)
        | .ok payload =>
            (.ok (winner, hdr.length.toNat), Splice.overwrite scan.buf 0 payload)

/-- The header-only scan of `slot_write`: the sequence number of a slot whose
header could be read and looks sane. -/
def slotWriteSeq (fails : Bool) (storage : Storage) (id : SlotId) : Option UInt32 :=
  match slotReadHeader fails storage id with
  | some hdr => if slotHeaderLooksSane hdr then some hdr.seq else none
  | none => none

/-- The slot `slot_write` overwrites and the sequence number it gives. The sum
wraps as the `uint32_t` of the source does. -/
def slotWriteTarget (fails : SlotId → Bool) (storage : Storage) : SlotId × UInt32 :=
  match slotWriteSeq (fails .a) storage .a, slotWriteSeq (fails .b) storage .b with
  | some left, some right => if left ≥ right then (.b, left + 1) else (.a, right + 1)
  | some left, none => (.b, left + 1)
  | none, some right => (.a, right + 1)
  | none, none => (.a, 1)

def slotNewHeader (seq : UInt32) (payload : List UInt8) : SlotHeader :=
  let hdr : SlotHeader :=
    { magic := slotMagic
      formatVer := slotFormatVer
      flags := 0
      seq := seq
      length := UInt32.ofNat payload.length
      crc32 := 0 }
  { hdr with crc32 := slotCrc hdr payload }

/-- `slot_write`: the payload first, then the header that commits it. -/
def slotWrite (faults : SlotWriteFaults) (storage : Storage) (payload : List UInt8) :
    Except SlotStatus Unit × Storage :=
  if payload.length = 0 then (.error .errBuf, storage)
  else if payload.length > slotPayloadMaxBytes then (.error .errTooLarge, storage)
  else
    let (target, newSeq) := slotWriteTarget faults.header storage
    let newHdr := slotNewHeader newSeq payload
    match storageWriteFaulty faults.payloadWrite storage (slotPayloadOffset target) payload with
    | (.error _, storage) => (.error .errStorage, storage)
    | (.ok (), storage) =>
        match storageWriteFaulty faults.headerWrite storage (slotOffset target)
            newHdr.toBytes with
        | (.error _, storage) => (.error .errStorage, storage)
        | (.ok (), storage) => (.ok (), storage)

end ConfigWp
