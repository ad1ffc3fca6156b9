import ConfigWp.Application.Tlv
import ConfigWp.Library.Framing

/-! The TLV grammar as a framing format, the iterator as its reader and the
writer as its encoder. -/

set_option autoImplicit false

namespace ConfigWp

open LittleEndian

structure TlvRecord where
  tag : UInt16
  value : List UInt8
  fits : value.length ≤ uint16Max
  deriving DecidableEq, Repr

namespace TlvRecord

@[ext] theorem ext {left right : TlvRecord} (tag : left.tag = right.tag)
    (value : left.value = right.value) : left = right := by
  cases left
  cases right
  simp_all

def encode (record : TlvRecord) : List UInt8 := tlvRecordBytes record.tag record.value

def size (record : TlvRecord) : Nat := tlvHeaderBytes + record.value.length

theorem size_pos (record : TlvRecord) : 0 < record.size := Nat.add_pos_left (by decide) _

theorem length_encode (record : TlvRecord) : record.encode.length = record.size :=
  length_tlvRecordBytes record.tag record.value

end TlvRecord

def tlvLength (stream : List UInt8) : Nat := (read16 (stream.drop 2)).toNat

theorem tlvLength_le (stream : List UInt8) : tlvLength stream ≤ uint16Max :=
  Nat.le_of_lt_succ (UInt16.toNat_lt _)

def tlvHead (stream : List UInt8) : Framing.Head UInt8 TlvRecord TlvStatus :=
  if stream.length = 0 then .done
  else if stream.length < tlvHeaderBytes then .malformed .errTruncated
  else if stream.length < tlvHeaderBytes + tlvLength stream then .malformed .errOverrun
  else
    .record
      { tag := read16 stream
        value := Splice.window stream tlvHeaderBytes (tlvLength stream)
        fits := (List.length_take_le _ _).trans (tlvLength_le stream) }
      (stream.drop (tlvHeaderBytes + tlvLength stream))

private theorem encode_append (record : TlvRecord) (rest : List UInt8) :
    record.encode ++ rest = write16 record.tag ++
      (write16 (UInt16.ofNat record.value.length) ++ (record.value ++ rest)) := by
  simp only [TlvRecord.encode, tlvRecordBytes, List.append_assoc]

theorem tlvLength_encode (record : TlvRecord) (rest : List UInt8) :
    tlvLength (record.encode ++ rest) = record.value.length := by
  have fits := record.fits
  simp only [uint16Max] at fits
  rw [tlvLength, encode_append, drop_write16 _ _ 0, List.drop_zero, read16_write16,
    UInt16.toNat_ofNat']
  omega

private theorem tlvHead_encode (record : TlvRecord) (rest : List UInt8) :
    tlvHead (record.encode ++ rest) = .record record rest := by
  have shape := encode_append record rest
  have length := tlvLength_encode record rest
  have size : (record.encode ++ rest).length =
      tlvHeaderBytes + record.value.length + rest.length := by
    rw [List.length_append, record.length_encode, TlvRecord.size]
  have value : Splice.window (record.encode ++ rest) tlvHeaderBytes record.value.length =
      record.value := by
    rw [Splice.window, shape]
    simp only [tlvHeaderBytes, drop_write16 _ _ 2, drop_write16 _ _ 0, List.drop_zero,
      List.take_left]
  have tail : (record.encode ++ rest).drop (tlvHeaderBytes + record.value.length) = rest := by
    rw [← TlvRecord.size, ← record.length_encode, List.drop_left]
  have tag : read16 (record.encode ++ rest) = record.tag := by rw [shape, read16_write16]
  have header : tlvHeaderBytes = 4 := rfl
  simp only [tlvHead, length, size, tail, tag, value]
  rw [if_neg (by omega), if_neg (by omega), if_neg (by omega)]

private theorem tlvHead_sound {stream rest : List UInt8} {record : TlvRecord}
    (found : tlvHead stream = .record record rest) : stream = record.encode ++ rest := by
  simp only [tlvHead] at found
  split_ifs at found with empty torn overrun
  obtain ⟨rfl, rfl⟩ := Framing.Head.record.inj found
  simp only [tlvHeaderBytes] at torn overrun
  have length : (Splice.window stream 4 (tlvLength stream)).length = tlvLength stream :=
    Splice.length_window (by omega)
  have field : write16 (UInt16.ofNat (tlvLength stream)) = (stream.drop 2).take 2 := by
    rw [tlvLength, UInt16.ofNat_toNat, write16_read16 (by rw [List.length_drop]; omega)]
  have tag : write16 (read16 stream) = stream.take 2 := write16_read16 (by omega)
  have value : Splice.window stream 4 (tlvLength stream) ++ stream.drop (4 + tlvLength stream) =
      (stream.drop 2).drop 2 := by
    rw [Splice.window, ← List.drop_drop, List.take_append_drop, List.drop_drop]
  calc
    stream = stream.take 2 ++ ((stream.drop 2).take 2 ++ (stream.drop 2).drop 2) := by
      rw [List.take_append_drop, List.take_append_drop]
    _ = write16 (read16 stream) ++
        (write16 (UInt16.ofNat (Splice.window stream 4 (tlvLength stream)).length) ++
          (Splice.window stream 4 (tlvLength stream) ++ stream.drop (4 + tlvLength stream))) := by
      rw [length, field, tag, value]
    _ = tlvRecordBytes (read16 stream) (Splice.window stream 4 (tlvLength stream)) ++
        stream.drop (4 + tlvLength stream) := by
      simp only [tlvRecordBytes, List.append_assoc]

/-- The grammar `tlv.c` reads and writes. -/
def tlvFormat : Framing.Format UInt8 TlvRecord TlvStatus where
  encode := TlvRecord.encode
  head := tlvHead
  head_nil := rfl
  head_encode := tlvHead_encode
  eq_nil_of_head := by
    intro stream ended
    simp only [tlvHead] at ended
    split_ifs at ended with empty
    exact List.eq_nil_of_length_eq_zero empty
  eq_encode_of_head := fun _ _ _ found => tlvHead_sound found
  encode_ne_nil := by
    intro record empty
    have size := record.length_encode
    rw [empty, TlvRecord.size, tlvHeaderBytes, List.length_nil] at size
    omega

theorem tlvFormat_encode (record : TlvRecord) : tlvFormat.encode record = record.encode := rfl

theorem length_encodeAll (records : List TlvRecord) :
    (tlvFormat.encodeAll records).length = (records.map TlvRecord.size).sum := by
  induction records with
  | nil => rfl
  | cons record records ih =>
      rw [Framing.Format.encodeAll_cons, List.length_append, ih, tlvFormat_encode,
        record.length_encode, List.map_cons, List.sum_cons]

/-! The iterator. -/

/-- One call of the iterator reads the head of what is left of the buffer. -/
theorem tlvIterNext_eq {it : TlvIter} (inside : it.cursor ≤ it.buf.length) :
    match tlvHead (it.buf.drop it.cursor) with
    | .done => tlvIterNext it = .error .finished
    | .malformed status => tlvIterNext it = .error status ∧ status ≠ .finished
    | .record record rest =>
        ∃ next, tlvIterNext it = .ok (record.tag, record.value, next) ∧ next.buf = it.buf ∧
          next.cursor ≤ it.buf.length ∧ next.buf.drop next.cursor = rest := by
  have left : (it.buf.drop it.cursor).length = it.buf.length - it.cursor := List.length_drop
  have length : (read16 (it.buf.drop (it.cursor + 2))).toNat =
      tlvLength (it.buf.drop it.cursor) := by rw [tlvLength, List.drop_drop]
  simp only [tlvHead, tlvIterNext, left, length, tlvHeaderBytes]
  by_cases ended : it.cursor = it.buf.length
  · simp only [ended, Nat.sub_self, if_true]
  rw [if_neg (by omega), if_neg ended]
  by_cases torn : it.cursor + 4 > it.buf.length
  · rw [if_pos (by omega), if_pos torn]
    exact ⟨rfl, by decide⟩
  rw [if_neg (by omega), if_neg torn]
  by_cases overrun : it.cursor + 4 + tlvLength (it.buf.drop it.cursor) > it.buf.length
  · rw [if_pos (by omega), if_pos overrun]
    exact ⟨rfl, by decide⟩
  rw [if_neg (by omega), if_neg overrun]
  have value : Splice.window it.buf (it.cursor + 4) (tlvLength (it.buf.drop it.cursor)) =
      Splice.window (it.buf.drop it.cursor) 4 (tlvLength (it.buf.drop it.cursor)) := by
    simp only [Splice.window, List.drop_drop]
  rw [value]
  refine ⟨_, rfl, rfl, Nat.not_lt.mp overrun, ?_⟩
  simp only [List.drop_drop, Nat.add_assoc]

/-! The writer. -/

namespace TlvWriter

def written (w : TlvWriter) : List UInt8 := w.buf.take w.used

theorem length_written (w : TlvWriter) : w.written.length = w.used := by
  rw [written, List.length_take, Nat.min_eq_left w.used_le]

@[simp] theorem written_init (buf : List UInt8) : (tlvWriterInit buf).written = [] :=
  List.take_zero

theorem written_advance (w : TlvWriter) (data : List UInt8) (room : w.used + data.length ≤ w.cap) :
    (w.advance data room).written = w.written ++ data :=
  Splice.take_overwrite_end w.used_le

@[simp] theorem cap_advance (w : TlvWriter) (data : List UInt8)
    (room : w.used + data.length ≤ w.cap) : (w.advance data room).cap = w.cap :=
  Splice.length_overwrite room

end TlvWriter

theorem tlvWriterEmit_cap (w : TlvWriter) (tag : UInt16) (value : TlvSource) :
    (tlvWriterEmit w tag value).2.cap = w.cap := by
  simp only [tlvWriterEmit]
  split_ifs <;> simp

theorem tlvWriterEmitRaw_cap (w : TlvWriter) (record : TlvSource) :
    (tlvWriterEmitRaw w record).2.cap = w.cap := by
  simp only [tlvWriterEmitRaw]
  split_ifs <;> simp

theorem tlvWriterEmit_record (w : TlvWriter) (record : TlvRecord) (usable : w.cap ≠ 0) :
    if w.used + record.size ≤ w.cap then
      ∃ next, tlvWriterEmit w record.tag (.bytes record.value) = (.ok (), next) ∧
        next.cap = w.cap ∧ next.written = w.written ++ record.encode
    else tlvWriterEmit w record.tag (.bytes record.value) = (.error .errNoSpace, w) := by
  have present :
      ¬((TlvSource.bytes record.value).isNull ∧ (TlvSource.bytes record.value).len ≠ 0) := by
    simp [TlvSource.isNull]
  have small : ¬(TlvSource.bytes record.value).len > uint16Max := Nat.not_lt.mpr record.fits
  rw [TlvRecord.size, ← Nat.add_assoc, tlvWriterEmit, if_neg usable, if_neg present, if_neg small]
  by_cases room : w.used + tlvHeaderBytes + record.value.length ≤ w.cap
  · rw [if_pos room]
    exact ⟨_, dif_pos room, TlvWriter.cap_advance _ _ _, TlvWriter.written_advance _ _ _⟩
  · rw [if_neg room]
    exact dif_neg room

/-- A raw record that is the encoding of one record is treated as that record. -/
theorem tlvWriterEmitRaw_record (w : TlvWriter) (record : TlvRecord) (usable : w.cap ≠ 0) :
    if w.used + record.size ≤ w.cap then
      ∃ next, tlvWriterEmitRaw w (.bytes record.encode) = (.ok (), next) ∧
        next.cap = w.cap ∧ next.written = w.written ++ record.encode
    else tlvWriterEmitRaw w (.bytes record.encode) = (.error .errNoSpace, w) := by
  have field := tlvLength_encode record []
  rw [List.append_nil, tlvLength] at field
  have header : ¬((TlvSource.bytes record.encode).isNull ∨
      (TlvSource.bytes record.encode).len < tlvHeaderBytes) := by
    simp [TlvSource.isNull, TlvSource.len, record.length_encode, TlvRecord.size]
  have length : ¬tlvHeaderBytes + (read16 ((TlvSource.bytes record.encode).data.drop 2)).toNat ≠
      (TlvSource.bytes record.encode).len := by
    simp only [TlvSource.data, TlvSource.len, field, record.length_encode, TlvRecord.size]
    exact not_not_intro rfl
  rw [← record.length_encode, tlvWriterEmitRaw, if_neg usable, if_neg header, if_neg length]
  by_cases room : w.used + record.encode.length ≤ w.cap
  · rw [if_pos room]
    exact ⟨_, dif_pos room, TlvWriter.cap_advance _ _ _, TlvWriter.written_advance _ _ _⟩
  · rw [if_neg room]
    exact dif_neg room

end ConfigWp
