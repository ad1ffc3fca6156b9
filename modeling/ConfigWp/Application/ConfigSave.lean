import ConfigWp.Application.ConfigLoad

/-! What saving does: the payload of an abstract state is the encoding of its 57
known records followed by its preserved records, and `config_save` writes it
whenever it fits a slot. -/

set_option autoImplicit false

namespace ConfigWp

open LittleEndian

theorem Domain.wireSize_le (domain : Domain) : domain.wireSize ≤ valueBufBytes := by
  cases domain <;> decide

def knownRecord (cache : ConfigCache) (key : RecordKey) : TlvRecord where
  tag := key.tag
  value := key.domain.put (cache.get key)
  fits := by
    have small := key.domain.wireSize_le
    simp only [valueBufBytes] at small
    rw [length_put, uint16Max]
    omega

def knownRecords (cache : ConfigCache) : List TlvRecord := recordKeys.map (knownRecord cache)

namespace Settings

def records (settings : Settings) : List TlvRecord :=
  knownRecords settings.cache ++ settings.preserved

def payload (settings : Settings) : List UInt8 := tlvFormat.encodeAll settings.records

end Settings

theorem recordsSize_knownRecords (cache : ConfigCache) :
    recordsSize (knownRecords cache) = 1697 := by
  have sizes : (knownRecords cache).map TlvRecord.size =
      recordKeys.map fun key => tlvHeaderBytes + key.domain.wireSize := by
    simp only [knownRecords, List.map_map]
    apply List.map_congr_left
    intro key _
    simp only [Function.comp, TlvRecord.size, knownRecord, length_put]
  rw [recordsSize, Packing.total, sizes]
  decide

theorem Settings.length_payload (settings : Settings) :
    settings.payload.length = 1697 + recordsSize settings.preserved := by
  rw [payload, length_encodeAll_records, records, recordsSize, Packing.total_append,
    ← recordsSize, ← recordsSize, recordsSize_knownRecords]

/-! The encoder. -/

theorem emitRecordLocked_spec (cache : ConfigCache) (key : RecordKey) {w : TlvWriter}
    (usable : w.cap ≠ 0) :
    if w.used + (knownRecord cache key).size ≤ w.cap then
      ∃ next, emitRecordLocked w key (cache.get key) = (.ok (), next) ∧ next.cap = w.cap ∧
        next.written = w.written ++ (knownRecord cache key).encode
    else emitRecordLocked w key (cache.get key) = (.error .errTooLarge, w) := by
  have small := key.domain.wireSize_le
  have size := length_put key.domain (cache.get key)
  have value : (Splice.overwrite (List.replicate valueBufBytes (0 : UInt8)) 0
      (key.domain.put (cache.get key))).take key.domain.wireSize =
        key.domain.put (cache.get key) := by
    rw [Splice.overwrite_zero, ← size, List.take_left]
  have encoded := configCodecEncode_eq key.domain (cache.get key) (List.replicate valueBufBytes 0)
  rw [if_neg (by rw [List.length_replicate]; exact Nat.not_lt.mpr small)] at encoded
  have emitted := tlvWriterEmit_record w (knownRecord cache key) usable
  by_cases room : w.used + (knownRecord cache key).size ≤ w.cap
  · rw [if_pos room] at emitted ⊢
    obtain ⟨next, succeeded, cap, written⟩ := emitted
    rw [knownRecord] at succeeded
    refine ⟨next, ?_, cap, written⟩
    simp only [emitRecordLocked, encoded, value, succeeded]
  · rw [if_neg room] at emitted ⊢
    rw [knownRecord] at emitted
    simp only [emitRecordLocked, encoded, value, emitted]

theorem emitRecordsLocked_spec (cache : ConfigCache) {keys : List RecordKey} {w : TlvWriter}
    (usable : w.cap ≠ 0) (room : w.used + recordsSize (keys.map (knownRecord cache)) ≤ w.cap) :
    ∃ next, emitRecordsLocked cache keys w = (.ok (), next) ∧ next.cap = w.cap ∧
      next.written = w.written ++ tlvFormat.encodeAll (keys.map (knownRecord cache)) := by
  induction keys generalizing w with
  | nil => exact ⟨w, rfl, rfl, by simp⟩
  | cons key keys ih =>
      simp only [List.map_cons, recordsSize, Packing.total_cons] at room
      have emitted := emitRecordLocked_spec cache key usable
      rw [if_pos (by omega)] at emitted
      obtain ⟨middle, succeeded, cap, written⟩ := emitted
      have used : middle.used = w.used + (knownRecord cache key).size := by
        rw [← middle.length_written, written, List.length_append, w.length_written,
          TlvRecord.length_encode]
      obtain ⟨next, finished, capacity, content⟩ := @ih middle (by rw [cap]; exact usable) (by
        rw [cap, used, recordsSize]
        omega)
      refine ⟨next, ?_, capacity.trans cap, ?_⟩
      · simp only [emitRecordsLocked, succeeded, finished]
      · rw [content, written, List.map_cons, Framing.Format.encodeAll_cons, tlvFormat_encode,
          List.append_assoc]

/-! The byte walk over the unknown records. -/

/-- The ways out of the walk. -/
inductive WalkExit where
  | finished
  | tornHeader
  | tornValue
  | refused (status : TlvStatus)
  | outOfFuel
  deriving DecidableEq, Repr

/-- What the encoder makes of them: the two early breaks pass for the end. -/
def WalkExit.status : WalkExit → Except ConfigStatus Unit
  | .refused .errNoSpace => .error .errTooLarge
  | .refused _ => .error .errCodec
  | _ => .ok ()

/-- The walk of `encode_cache_locked` with the way it ends in view. -/
def reemitUnknownWalk (unknown : UnknownStore) : Nat → Nat → TlvWriter → WalkExit × TlvWriter
  | 0, cursor, w => (if cursor ≥ unknown.used then .finished else .outOfFuel, w)
  | fuel + 1, cursor, w =>
      if cursor ≥ unknown.used then (.finished, w)
      else if cursor + tlvHeaderBytes > unknown.used then (.tornHeader, w)
      else
        let total := tlvHeaderBytes + (read16 (unknown.buf.drop (cursor + 2))).toNat
        if cursor + total > unknown.used then (.tornValue, w)
        else
          match tlvWriterEmitRaw w (.bytes (Splice.window unknown.buf cursor total)) with
          | (.ok (), w) => reemitUnknownWalk unknown fuel (cursor + total) w
          | (.error status, w) => (.refused status, w)

theorem reemitUnknownLoop_eq (unknown : UnknownStore) (fuel cursor : Nat) (w : TlvWriter) :
    reemitUnknownLoop unknown fuel cursor w =
      ((reemitUnknownWalk unknown fuel cursor w).1.status,
        (reemitUnknownWalk unknown fuel cursor w).2) := by
  induction fuel generalizing cursor w with
  | zero =>
      rw [reemitUnknownLoop, reemitUnknownWalk]
      split_ifs <;> rfl
  | succ fuel ih =>
      rw [reemitUnknownLoop, reemitUnknownWalk]
      split_ifs with ended torn
      · rfl
      · rfl
      dsimp only
      split_ifs with overrun
      · rfl
      rcases tlvWriterEmitRaw w (.bytes (Splice.window unknown.buf cursor (tlvHeaderBytes +
        (read16 (unknown.buf.drop (cursor + 2))).toNat))) with ⟨status | done, next⟩
      · cases status <;> rfl
      · exact ih _ _

/-- Where a record starts, the walk finds its length field and its bytes. -/
theorem UnknownStore.record_at {unknown : UnknownStore} {cursor : Nat} {record : TlvRecord}
    {rest : List UInt8} (left : unknown.bytes.drop cursor = record.encode ++ rest) :
    cursor + record.size ≤ unknown.used ∧
      (read16 (unknown.buf.drop (cursor + 2))).toNat = record.value.length ∧
      Splice.window unknown.buf cursor record.size = record.encode := by
  have positive := record.size_pos
  have size := congrArg List.length left
  rw [List.length_drop, unknown.length_bytes, List.length_append, record.length_encode] at size
  have shape : unknown.buf.drop cursor =
      record.encode ++ (rest ++ unknown.buf.drop unknown.used) := by
    have inside : cursor ≤ unknown.bytes.length := by
      rw [unknown.length_bytes]
      omega
    calc
      unknown.buf.drop cursor = (unknown.bytes ++ unknown.buf.drop unknown.used).drop cursor := by
        rw [UnknownStore.bytes, List.take_append_drop]
      _ = record.encode ++ (rest ++ unknown.buf.drop unknown.used) := by
        rw [List.drop_append_of_le_length inside, left, List.append_assoc]
  refine ⟨by omega, ?_, ?_⟩
  · rw [← List.drop_drop, shape]
    exact tlvLength_encode record _
  · rw [Splice.window, shape, ← record.length_encode, List.take_left]

/-- One turn of the walk where a record starts: neither early break is taken and exactly
that record is handed to the writer. -/
theorem reemitUnknownWalk_record {unknown : UnknownStore} {cursor : Nat} {record : TlvRecord}
    {rest : List UInt8} (left : unknown.bytes.drop cursor = record.encode ++ rest) (fuel : Nat)
    (w : TlvWriter) :
    reemitUnknownWalk unknown (fuel + 1) cursor w =
      match tlvWriterEmitRaw w (.bytes record.encode) with
      | (.ok (), w) => reemitUnknownWalk unknown fuel (cursor + record.size) w
      | (.error status, w) => (.refused status, w) := by
  obtain ⟨inside, field, raw⟩ := UnknownStore.record_at left
  have positive := record.size_pos
  have extent : record.size = tlvHeaderBytes + record.value.length := rfl
  simp only [reemitUnknownWalk, field, ← extent, raw]
  exact (if_neg (by omega)).trans <| (if_neg (by omega)).trans <| if_neg (by omega)

/-- The walk re-emits the records of the store one by one, whole and in order, and stops at
the first that does not fit. -/
theorem reemitUnknownWalk_spec {unknown : UnknownStore} {fuel cursor : Nat} {w : TlvWriter}
    {records : List TlvRecord} (usable : w.cap ≠ 0)
    (left : unknown.bytes.drop cursor = tlvFormat.encodeAll records)
    (adequate : records.length ≤ fuel) :
    if w.used + recordsSize records ≤ w.cap then
      ∃ next, reemitUnknownWalk unknown fuel cursor w = (.finished, next) ∧ next.cap = w.cap ∧
        next.written = w.written ++ tlvFormat.encodeAll records
    else (reemitUnknownWalk unknown fuel cursor w).1 = .refused .errNoSpace := by
  induction records generalizing fuel cursor w with
  | nil =>
      have ended : unknown.used ≤ cursor := by
        have size := congrArg List.length left
        rw [List.length_drop, unknown.length_bytes, Framing.Format.encodeAll_nil,
          List.length_nil] at size
        omega
      have room : w.used + recordsSize [] ≤ w.cap := w.used_le
      rw [if_pos room]
      refine ⟨w, ?_, rfl, by simp⟩
      cases fuel with
      | zero => simp only [reemitUnknownWalk, if_pos ended]
      | succ fuel => simp only [reemitUnknownWalk, if_pos ended]
  | cons record records ih =>
      cases fuel with
      | zero => exact absurd adequate (Nat.not_succ_le_zero _)
      | succ fuel =>
          rw [Framing.Format.encodeAll_cons, tlvFormat_encode] at left
          have turn := reemitUnknownWalk_record left fuel w
          have further : unknown.bytes.drop (cursor + record.size) =
              tlvFormat.encodeAll records := by
            rw [← List.drop_drop, left, ← record.length_encode, List.drop_left]
          have total : recordsSize (record :: records) = record.size + recordsSize records :=
            Packing.total_cons _ _ _
          have emitted := tlvWriterEmitRaw_record w record usable
          by_cases first : w.used + record.size ≤ w.cap
          · rw [if_pos first] at emitted
            obtain ⟨middle, succeeded, cap, written⟩ := emitted
            have used : middle.used = w.used + record.size := by
              rw [← middle.length_written, written, List.length_append, w.length_written,
                record.length_encode]
            have rest := @ih fuel (cursor + record.size) middle (cap ▸ usable) further
              (Nat.le_of_succ_le_succ adequate)
            rw [cap, used, Nat.add_assoc, ← total] at rest
            simp only [succeeded] at turn
            rw [turn]
            by_cases room : w.used + recordsSize (record :: records) ≤ w.cap
            · rw [if_pos room] at rest ⊢
              obtain ⟨next, finished, capacity, content⟩ := rest
              refine ⟨next, finished, capacity, ?_⟩
              rw [content, written, Framing.Format.encodeAll_cons, tlvFormat_encode,
                List.append_assoc]
            · rw [if_neg room] at rest ⊢
              exact rest
          · rw [if_neg first] at emitted
            simp only [emitted] at turn
            rw [turn, if_neg (by omega)]

theorem reemitUnknownLoop_spec {unknown : UnknownStore} {fuel cursor : Nat} {w : TlvWriter}
    {records : List TlvRecord} (usable : w.cap ≠ 0)
    (left : unknown.bytes.drop cursor = tlvFormat.encodeAll records)
    (adequate : records.length ≤ fuel) :
    if w.used + recordsSize records ≤ w.cap then
      ∃ next, reemitUnknownLoop unknown fuel cursor w = (.ok (), next) ∧ next.cap = w.cap ∧
        next.written = w.written ++ tlvFormat.encodeAll records
    else (reemitUnknownLoop unknown fuel cursor w).1 = .error .errTooLarge := by
  have walked := reemitUnknownWalk_spec usable left adequate
  rw [reemitUnknownLoop_eq]
  by_cases room : w.used + recordsSize records ≤ w.cap
  · rw [if_pos room] at walked ⊢
    obtain ⟨next, finished, shape⟩ := walked
    exact ⟨next, by rw [finished]; rfl, shape⟩
  · rw [if_neg room] at walked ⊢
    rw [walked]
    rfl

theorem length_le_recordsSize (records : List TlvRecord) :
    records.length ≤ recordsSize records := by
  induction records with
  | nil => exact Nat.zero_le _
  | cons record records ih =>
      have header : record.size = tlvHeaderBytes + record.value.length := rfl
      have four : tlvHeaderBytes = 4 := rfl
      rw [recordsSize, Packing.total_cons, ← recordsSize, List.length_cons]
      omega

theorem encodeCacheLocked_spec {m : Manager} {settings : Settings} (holds : m.Holds settings)
    {buf : List UInt8} (size : buf.length = slotPayloadMaxBytes) :
    if settings.payload.length ≤ slotPayloadMaxBytes then
      (encodeCacheLocked m.cache m.unknown buf).1 = .ok settings.payload.length ∧
        (encodeCacheLocked m.cache m.unknown buf).2.take settings.payload.length =
          settings.payload
    else (encodeCacheLocked m.cache m.unknown buf).1 = .error .errTooLarge := by
  have used := holds.used
  obtain ⟨cache, bytes⟩ := holds
  have known := recordsSize_knownRecords settings.cache
  have cap : (tlvWriterInit buf).cap = slotPayloadMaxBytes := size
  have usable : slotPayloadMaxBytes ≠ 0 := by decide
  have room : (tlvWriterInit buf).used + recordsSize (knownRecords settings.cache) ≤
      (tlvWriterInit buf).cap := by
    have start : (tlvWriterInit buf).used = 0 := rfl
    rw [cap, known, start]
    decide
  obtain ⟨middle, emitted, capacity, written⟩ :=
    @emitRecordsLocked_spec settings.cache recordKeys (tlvWriterInit buf) (cap ▸ usable) room
  rw [← knownRecords, TlvWriter.written_init, List.nil_append] at written
  have sofar : middle.used = 1697 := by
    rw [← middle.length_written, written, length_encodeAll_records, known]
  have count : settings.preserved.length ≤ m.unknown.used := by
    rw [used]
    exact length_le_recordsSize settings.preserved
  have walked := @reemitUnknownLoop_spec m.unknown m.unknown.used 0 middle settings.preserved
    (capacity ▸ cap ▸ usable) (by rw [List.drop_zero, bytes]) count
  rw [sofar, capacity, cap, ← settings.length_payload] at walked
  by_cases fits : settings.payload.length ≤ slotPayloadMaxBytes
  · rw [if_pos fits] at walked ⊢
    obtain ⟨next, finished, -, content⟩ := walked
    rw [written, ← Framing.Format.encodeAll_append, ← Settings.records, ← Settings.payload]
      at content
    have total : next.used = settings.payload.length := by
      rw [← next.length_written, content]
    simp only [encodeCacheLocked, cache, emitted, reemitUnknownLocked, finished, tlvWriterSize,
      total, true_and]
    rw [← total, ← TlvWriter.written, content]
  · rw [if_neg fits] at walked ⊢
    rcases outcome : reemitUnknownLoop m.unknown m.unknown.used 0 middle with ⟨verdict, next⟩
    rw [outcome] at walked
    simp only at walked
    subst walked
    simp only [encodeCacheLocked, cache, emitted, reemitUnknownLocked, outcome]

end ConfigWp
