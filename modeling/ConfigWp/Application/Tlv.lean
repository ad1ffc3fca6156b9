import ConfigWp.Library.LittleEndian
import ConfigWp.Library.Splice

/-! The TLV iterator and writer of `tlv.c`. -/

set_option autoImplicit false

namespace ConfigWp

open LittleEndian

/-- The statuses of `tlv_status_t` other than `TLV_OK`; `TLV_END` is `finished`. -/
inductive TlvStatus where
  | finished
  | errTruncated
  | errOverrun
  | errTooBig
  | errNoSpace
  | errBuf
  deriving DecidableEq, Repr

def tlvHeaderBytes : Nat := 4

def uint16Max : Nat := 65535

/-- A pointer and length handed to the writer. -/
inductive TlvSource where
  | null (len : Nat)
  | bytes (data : List UInt8)
  deriving DecidableEq, Repr

namespace TlvSource

def len : TlvSource → Nat
  | .null len => len
  | .bytes data => data.length

def isNull : TlvSource → Bool
  | .null _ => true
  | .bytes _ => false

def data : TlvSource → List UInt8
  | .null _ => []
  | .bytes data => data

theorem length_data_le (source : TlvSource) : source.data.length ≤ source.len := by
  cases source <;> simp [data, len]

end TlvSource

structure TlvIter where
  buf : List UInt8
  cursor : Nat
  deriving DecidableEq, Repr

def tlvIterInit (buf : List UInt8) : TlvIter := ⟨buf, 0⟩

def tlvIterDone (it : TlvIter) : Bool := it.cursor ≥ it.buf.length

def tlvIterNext (it : TlvIter) : Except TlvStatus (UInt16 × List UInt8 × TlvIter) :=
  if it.cursor = it.buf.length then .error .finished
  else if it.cursor + tlvHeaderBytes > it.buf.length then .error .errTruncated
  else
    let tag := read16 (it.buf.drop it.cursor)
    let length := (read16 (it.buf.drop (it.cursor + 2))).toNat
    let valueOff := it.cursor + tlvHeaderBytes
    if valueOff + length > it.buf.length then .error .errOverrun
    else
      .ok (tag, Splice.window it.buf valueOff length, { it with cursor := valueOff + length })

/-- `tlv_writer_t`; the length of `buf` is `cap`, and a NULL buffer is an empty
one. -/
structure TlvWriter where
  buf : List UInt8
  used : Nat
  used_le : used ≤ buf.length

def tlvWriterInit (buf : List UInt8) : TlvWriter := ⟨buf, 0, Nat.zero_le _⟩

def tlvWriterSize (w : TlvWriter) : Nat := w.used

namespace TlvWriter

def cap (w : TlvWriter) : Nat := w.buf.length

def advance (w : TlvWriter) (data : List UInt8) (room : w.used + data.length ≤ w.cap) :
    TlvWriter where
  buf := Splice.overwrite w.buf w.used data
  used := w.used + data.length
  used_le := by
    rw [Splice.length_overwrite room]
    exact room

end TlvWriter

def tlvRecordBytes (tag : UInt16) (value : List UInt8) : List UInt8 :=
  write16 tag ++ write16 (UInt16.ofNat value.length) ++ value

theorem length_tlvRecordBytes (tag : UInt16) (value : List UInt8) :
    (tlvRecordBytes tag value).length = tlvHeaderBytes + value.length := by
  simp only [tlvRecordBytes, List.length_append, length_write16, tlvHeaderBytes]

def tlvWriterEmit (w : TlvWriter) (tag : UInt16) (value : TlvSource) :
    Except TlvStatus Unit × TlvWriter :=
  if w.cap = 0 then (.error .errBuf, w)
  else if value.isNull ∧ value.len ≠ 0 then (.error .errBuf, w)
  else if value.len > uint16Max then (.error .errTooBig, w)
  else if room : w.used + tlvHeaderBytes + value.len ≤ w.cap then
    (.ok (), w.advance (tlvRecordBytes tag value.data) (by
      have shorter := value.length_data_le
      rw [length_tlvRecordBytes]
      omega))
  else (.error .errNoSpace, w)

def tlvWriterEmitRaw (w : TlvWriter) (record : TlvSource) : Except TlvStatus Unit × TlvWriter :=
  if w.cap = 0 then (.error .errBuf, w)
  else if record.isNull ∨ record.len < tlvHeaderBytes then (.error .errBuf, w)
  else if tlvHeaderBytes + (read16 (record.data.drop 2)).toNat ≠ record.len then
    (.error .errOverrun, w)
  else if room : w.used + record.len ≤ w.cap then
    (.ok (), w.advance record.data (by
      have shorter := record.length_data_le
      omega))
  else (.error .errNoSpace, w)

end ConfigWp
