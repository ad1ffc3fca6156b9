import ConfigWp.Application.Config
import ConfigWp.Library.Overlay
import ConfigWp.Library.Packing

/-! What loading a payload does, as a function of its records. The abstract
state of the manager is the cache and the list of preserved records; a load
overlays the defaults with the records up to the first short one and packs the
unrecognised ones among them into the room of the store. -/

set_option autoImplicit false

namespace ConfigWp

/-! Which entry a record addresses. -/

namespace Domain

def ofCode? (code : UInt8) : Option Domain := all.find? fun domain => domain.code == code

theorem ofCode?_code (domain : Domain) : ofCode? domain.code = some domain := by
  cases domain <;> rfl

theorem code_of_ofCode? {code : UInt8} {domain : Domain} (found : ofCode? code = some domain) :
    domain.code = code := by
  simpa using List.find?_some found

theorem ne_code_of_ofCode? {code : UInt8} (unknown : ofCode? code = none) (domain : Domain) :
    code ≠ domain.code := by
  rintro rfl
  rw [ofCode?_code] at unknown
  exact Option.some_ne_none _ unknown

/-- The entry of an indexed type, or the one system entry whatever the index. -/
def entryAt : Domain → UInt8 → Option RecordKey
  | .system, _ => some ⟨.system, ⟨0, Nat.one_pos⟩⟩
  | domain, index =>
      if inside : index.toNat < domain.count then some ⟨domain, ⟨_, inside⟩⟩ else none

theorem entryAt_indexed {domain : Domain} (indexed : domain ≠ .system) (index : UInt8) :
    domain.entryAt index =
      if inside : index.toNat < domain.count then some ⟨domain, ⟨_, inside⟩⟩ else none := by
  cases domain <;> first | rfl | exact absurd rfl indexed

end Domain

/-- The entry a record with this tag is decoded into; unrecognised tags have none. -/
def entryOf (tag : UInt16) : Option RecordKey :=
  (Domain.ofCode? (configCodecTagDomain tag)).bind fun domain =>
    domain.entryAt (configCodecTagIndex tag)

def TlvRecord.entry (record : TlvRecord) : Option RecordKey := entryOf record.tag

def TlvRecord.unrecognised (record : TlvRecord) : Bool := record.entry.isNone

def TlvRecord.short (record : TlvRecord) : Bool :=
  match record.entry with
  | none => false
  | some key => record.value.length < key.domain.wireSize

theorem entryOf_tag (key : RecordKey) : entryOf key.tag = some key := by
  obtain ⟨domain, index⟩ := key
  have place := RecordKey.tagIndex_tag ⟨domain, index⟩
  rw [entryOf, RecordKey.tagDomain_tag, Domain.ofCode?_code, Option.bind_some]
  cases domain with
  | system => rw [Subsingleton.elim (α := Fin 1) index 0]; rfl
  | _ => exact (dif_pos (place ▸ index.isLt)).trans (by simp only [place])

theorem decodeIoRecordLocked_eq {domain : Domain} (indexed : domain ≠ .system) (m : Manager)
    (tag : UInt16) (value : List UInt8) :
    decodeIoRecordLocked m domain tag value =
      match domain.entryAt (configCodecTagIndex tag) with
      | none => (.ok (), { m with unknown := preserveUnknownLocked m.unknown tag value })
      | some key =>
          if value.length < key.domain.wireSize then (.error .errCodec, m)
          else (.ok (), { m with cache := m.cache.set key (key.domain.get value) }) := by
  rw [Domain.entryAt_indexed indexed, decodeIoRecordLocked, configCodecDecode_eq]
  by_cases inside : (configCodecTagIndex tag).toNat < domain.count
  · simp only [dif_pos inside]
    split_ifs <;> rfl
  · simp only [dif_neg inside]

theorem decodeIntoRecordLocked_eq (m : Manager) (tag : UInt16) (value : List UInt8) :
    decodeIntoRecordLocked m tag value =
      match entryOf tag with
      | none => (.ok (), { m with unknown := preserveUnknownLocked m.unknown tag value })
      | some key =>
          if value.length < key.domain.wireSize then (.error .errCodec, m)
          else (.ok (), { m with cache := m.cache.set key (key.domain.get value) }) := by
  cases known : Domain.ofCode? (configCodecTagDomain tag) with
  | none =>
      have other := Domain.ne_code_of_ofCode? known
      simp only [entryOf, known, Option.bind_none]
      exact (if_neg (other .di)).trans <| (if_neg (other .do_)).trans <|
        (if_neg (other .tc)).trans <| (if_neg (other .ai)).trans <| (if_neg (other .ao)).trans <|
          (if_neg (other .pcnt)).trans <| (if_neg (other .pwm)).trans <| if_neg (other .system)
  | some domain =>
      have code := Domain.code_of_ofCode? known
      have entry : entryOf tag = domain.entryAt (configCodecTagIndex tag) := by
        rw [entryOf, known, Option.bind_some]
      rw [entry]
      cases domain with
      | system =>
          have switched :
              decodeIntoRecordLocked m tag value = decodeSystemRecordLocked m value := by
            simp only [decodeIntoRecordLocked, ← code]
            rfl
          have decoded := configCodecDecode_eq .system value
          rw [configCodecDecode] at decoded
          rw [switched, decodeSystemRecordLocked, decoded, Domain.entryAt]
          by_cases short : value.length < Domain.system.wireSize
          · simp only [if_pos short]
          · simp only [if_neg short]
      | _ =>
          rw [← decodeIoRecordLocked_eq (by decide)]
          simp only [decodeIntoRecordLocked, ← code]
          rfl

/-! The store of unrecognised records. -/

def UnknownStore.bytes (unknown : UnknownStore) : List UInt8 := unknown.buf.take unknown.used

theorem UnknownStore.length_bytes (unknown : UnknownStore) :
    unknown.bytes.length = unknown.used := by
  rw [bytes, List.length_take, unknown.size_eq, Nat.min_eq_left unknown.used_le]

theorem UnknownStore.bytes_splice (unknown : UnknownStore) (w : TlvWriter)
    (same : w.cap = unknownBufBytes - unknown.used) :
    (unknown.splice w same).bytes = unknown.bytes ++ w.written := by
  have room : unknown.used ≤ unknown.buf.length := by
    rw [unknown.size_eq]
    exact unknown.used_le
  simp only [bytes, splice, Splice.overwrite, tlvWriterSize, List.append_assoc]
  rw [List.take_append, List.length_take, Nat.min_eq_left room,
    List.take_of_length_le (by rw [List.length_take]; omega), Nat.add_sub_cancel_left,
    List.take_append_of_le_length w.used_le, TlvWriter.written]

theorem preserveUnknownLocked_bytes (unknown : UnknownStore) (record : TlvRecord) :
    (preserveUnknownLocked unknown record.tag record.value).bytes =
      if record.size ≤ unknownBufBytes - unknown.used then unknown.bytes ++ record.encode
      else unknown.bytes := by
  have bound := unknown.used_le
  have size : record.size = tlvHeaderBytes + record.value.length := rfl
  have header : tlvHeaderBytes = 4 := rfl
  have cap : (tlvWriterInit (unknown.buf.drop unknown.used)).cap =
      unknownBufBytes - unknown.used := by
    rw [TlvWriter.cap, tlvWriterInit, List.length_drop, unknown.size_eq]
  by_cases fits : record.size ≤ unknownBufBytes - unknown.used
  · have usable : (tlvWriterInit (unknown.buf.drop unknown.used)).cap ≠ 0 := by omega
    have emitted := tlvWriterEmit_record (tlvWriterInit (unknown.buf.drop unknown.used)) record
      usable
    rw [if_pos (by rw [cap]; simpa [tlvWriterInit] using fits)] at emitted
    obtain ⟨next, succeeded, -, written⟩ := emitted
    rw [if_pos fits, preserveUnknownLocked, if_neg (by omega)]
    split
    · rename_i w outcome
      rw [succeeded] at outcome
      obtain rfl : next = w := by simpa using outcome
      rw [UnknownStore.bytes_splice, written]
      rfl
    · rename_i status w outcome
      rw [succeeded] at outcome
      simp at outcome
  · rw [if_neg fits, preserveUnknownLocked, if_pos (by omega)]

/-! Loading, record by record. -/

def loadRecord (m : Manager) (record : TlvRecord) : Except ConfigStatus Unit × Manager :=
  decodeIntoRecordLocked m record.tag record.value

def loadRecords : List TlvRecord → Manager → Except ConfigStatus Unit × Manager
  | [], m => (.ok (), m)
  | record :: records, m =>
      match loadRecord m record with
      | (.ok (), m) => loadRecords records m
      | (.error status, m) => (.error status, m)

/-- The loop over the iterator visits the records of the scan, and ends with the
verdict of the scan when all of them load. -/
theorem decodeBlobLoop_eq {fuel : Nat} {it : TlvIter} (inside : it.cursor ≤ it.buf.length)
    (adequate : it.buf.length - it.cursor < fuel) (m : Manager) :
    decodeBlobLoop fuel it m =
      match loadRecords (tlvFormat.scan (it.buf.drop it.cursor)).1 m with
      | (.ok (), m) =>
          (if (tlvFormat.scan (it.buf.drop it.cursor)).2.isNone then .ok ()
            else .error .errCodec, m)
      | (.error status, m) => (.error status, m) := by
  induction fuel generalizing it m with
  | zero => exact absurd adequate (Nat.not_lt_zero _)
  | succ fuel ih =>
      have next := tlvIterNext_eq inside
      cases head : tlvHead (it.buf.drop it.cursor) with
      | done =>
          rw [head] at next
          have scanned := tlvFormat.scan_done head
          simp only [decodeBlobLoop, next, scanned, loadRecords]
          rfl
      | malformed status =>
          rw [head] at next
          obtain ⟨refused, failed⟩ := next
          have scanned := tlvFormat.scan_malformed head
          simp only [decodeBlobLoop, refused, scanned, loadRecords]
          cases status <;> rfl
      | record record rest =>
          rw [head] at next
          obtain ⟨moved, taken, same, within, left⟩ := next
          have scanned := tlvFormat.scan_record head
          have shorter := tlvFormat.length_rest_lt head
          rw [← left, List.length_drop, List.length_drop, same] at shorter
          simp only [decodeBlobLoop, taken, scanned, loadRecords]
          rw [loadRecord]
          cases outcome : decodeIntoRecordLocked m record.tag record.value with
          | mk verdict loaded =>
              cases verdict with
              | error status => rfl
              | ok done =>
                  rw [← same] at within
                  simp only [ih within (by rw [same]; omega), left]

theorem decodeBlobLocked_eq (m : Manager) (blob : List UInt8) :
    decodeBlobLocked m blob =
      match loadRecords (tlvFormat.scan blob).1 m with
      | (.ok (), m) => (if (tlvFormat.scan blob).2.isNone then .ok () else .error .errCodec, m)
      | (.error status, m) => (.error status, m) :=
  @decodeBlobLoop_eq (blob.length + 1) (tlvIterInit blob) (Nat.zero_le _) (Nat.lt_succ_self _) m

/-! The abstract state. -/

/-- What the manager is for: the value of every entry, and the records it keeps
for a firmware that knows them. -/
structure Settings where
  cache : ConfigCache
  preserved : List TlvRecord
  deriving DecidableEq

def recordsSize (records : List TlvRecord) : Nat := Packing.total TlvRecord.size records

theorem length_encodeAll_records (records : List TlvRecord) :
    (tlvFormat.encodeAll records).length = recordsSize records :=
  length_encodeAll records

def unrecognised (records : List TlvRecord) : List TlvRecord :=
  records.filter TlvRecord.unrecognised

def accepted (records : List TlvRecord) : List TlvRecord :=
  records.takeWhile fun record => !record.short

def cacheStore : Overlay.Store ConfigCache (fun key : RecordKey => key.domain.Record) where
  get := ConfigCache.get
  set := ConfigCache.set
  get_set_same := ConfigCache.get_set_same
  get_set_other := fun cache _ _ record apart => cache.get_set_other record apart

def decodeFor (record : TlvRecord) (key : RecordKey) : key.domain.Record :=
  key.domain.get record.value

/-- The unrecognised records among `records` that fit the room a store has left. -/
def packed (room : Nat) (records : List TlvRecord) : List TlvRecord :=
  Packing.keep TlvRecord.size room (unrecognised records)

namespace Settings

def defaults : Settings := ⟨.defaults, []⟩

def overlay (settings : Settings) (records : List TlvRecord) : Settings where
  cache := Overlay.apply TlvRecord.entry cacheStore decodeFor settings.cache records
  preserved := settings.preserved ++
    packed (unknownBufBytes - recordsSize settings.preserved) records

def load (records : List TlvRecord) : Settings := defaults.overlay records

theorem overlay_nil (settings : Settings) : settings.overlay [] = settings := by
  simp [overlay, packed, unrecognised, Overlay.apply_nil]

theorem overlay_append (settings : Settings) (left right : List TlvRecord) :
    (settings.overlay left).overlay right = settings.overlay (left ++ right) := by
  have cache : ((settings.overlay left).overlay right).cache =
      (settings.overlay (left ++ right)).cache := by
    simp only [overlay, Overlay.apply, List.foldl_append]
  have preserved : ((settings.overlay left).overlay right).preserved =
      (settings.overlay (left ++ right)).preserved := by
    simp only [overlay, packed, unrecognised, List.filter_append, Packing.keep_append,
      List.append_assoc, recordsSize, Packing.total_append, Nat.sub_sub]
  cases first : (settings.overlay left).overlay right
  cases second : settings.overlay (left ++ right)
  simp_all

theorem preserved_load (records : List TlvRecord) :
    (load records).preserved = packed unknownBufBytes records := by
  simp [load, overlay, defaults, recordsSize]

/-- An entry of a loaded configuration is the decoding of the last record that
addresses it, or its default. -/
theorem get_load (records : List TlvRecord) (key : RecordKey) :
    (load records).cache.get key =
      match Overlay.last TlvRecord.entry key records with
      | some record => key.domain.get record.value
      | none => key.domain.default := by
  rw [← ConfigCache.get_defaults]
  have decided :=
    Overlay.get_apply TlvRecord.entry cacheStore decodeFor ConfigCache.defaults records key
  cases last : Overlay.last TlvRecord.entry key records with
  | none =>
      rw [last] at decided
      exact decided
  | some record =>
      rw [last] at decided
      exact decided

end Settings

/-- The manager's statics represent the abstract state. -/
def Manager.Holds (m : Manager) (settings : Settings) : Prop :=
  m.cache = settings.cache ∧ m.unknown.bytes = tlvFormat.encodeAll settings.preserved

theorem Manager.Holds.used {m : Manager} {settings : Settings} (holds : m.Holds settings) :
    m.unknown.used = recordsSize settings.preserved := by
  rw [← m.unknown.length_bytes, holds.2, length_encodeAll_records]

theorem Manager.Holds.unique {m : Manager} {left right : Settings} (holds : m.Holds left)
    (other : m.Holds right) : left = right := by
  have preserved := tlvFormat.encodeAll_injective (holds.2.symm.trans other.2)
  have cache := holds.1.symm.trans other.1
  cases left
  cases right
  simp_all

theorem Manager.Holds.congr {m other : Manager} {settings : Settings} (holds : m.Holds settings)
    (cache : other.cache = m.cache) (unknown : other.unknown = m.unknown) :
    other.Holds settings :=
  ⟨cache.trans holds.1, by rw [unknown, holds.2]⟩

theorem loadDefaultsLocked_holds (m : Manager) : (loadDefaultsLocked m).Holds .defaults :=
  ⟨rfl, rfl⟩

theorem loadRecord_short {record : TlvRecord} (short : record.short = true) (m : Manager) :
    loadRecord m record = (.error .errCodec, m) := by
  rw [loadRecord, decodeIntoRecordLocked_eq]
  rw [TlvRecord.short, TlvRecord.entry] at short
  cases entry : entryOf record.tag with
  | none => simp [entry] at short
  | some key =>
      simp only [entry, decide_eq_true_eq] at short
      simp only [if_pos short]

theorem loadRecord_holds {record : TlvRecord} (long : record.short = false) {m : Manager}
    {settings : Settings} (holds : m.Holds settings) :
    (loadRecord m record).1 = .ok () ∧
      (loadRecord m record).2.Holds (settings.overlay [record]) := by
  have used := holds.used
  obtain ⟨cache, bytes⟩ := holds
  rw [loadRecord, decodeIntoRecordLocked_eq]
  rw [TlvRecord.short] at long
  cases entry : record.entry with
  | none =>
      have skipped : record.unrecognised = true := by rw [TlvRecord.unrecognised, entry]; rfl
      have untouched : (settings.overlay [record]).cache = settings.cache := by
        simp only [Settings.overlay, Overlay.apply_cons, Overlay.apply_nil, Overlay.step, entry]
      rw [TlvRecord.entry] at entry
      simp only [entry]
      refine ⟨trivial, by rw [untouched]; exact cache, ?_⟩
      simp only [preserveUnknownLocked_bytes, used, bytes, Settings.overlay, packed, unrecognised,
        List.filter_cons_of_pos skipped, List.filter_nil, Framing.Format.encodeAll_append]
      by_cases fits : record.size ≤ unknownBufBytes - recordsSize settings.preserved
      · rw [if_pos fits, Packing.keep_cons_fits _ _ fits]
        simp [tlvFormat_encode]
      · rw [if_neg fits, Packing.keep_cons_drop _ _ (Nat.not_le.mp fits)]
        simp
  | some key =>
      have known : record.unrecognised = false := by rw [TlvRecord.unrecognised, entry]; rfl
      have replaced : (settings.overlay [record]).cache =
          settings.cache.set key (key.domain.get record.value) := by
        simp only [Settings.overlay, Overlay.apply_cons, Overlay.apply_nil, Overlay.step, entry]
        rfl
      simp only [entry, decide_eq_false_iff_not] at long
      rw [TlvRecord.entry] at entry
      simp only [entry, if_neg long]
      refine ⟨trivial, by rw [replaced, cache], ?_⟩
      simp only [bytes, Settings.overlay, packed, unrecognised,
        List.filter_cons_of_neg (Bool.eq_false_iff.mp known), List.filter_nil, Packing.keep_nil,
        List.append_nil]

/-- Loading a list of records overlays the abstract state with those in front of
the first short one, and fails when there is one. -/
theorem loadRecords_holds (records : List TlvRecord) {m : Manager} {settings : Settings}
    (holds : m.Holds settings) :
    (loadRecords records m).1 =
        (if records.any TlvRecord.short then .error .errCodec else .ok ()) ∧
      (loadRecords records m).2.Holds (settings.overlay (accepted records)) := by
  induction records generalizing m settings with
  | nil => exact ⟨rfl, by rw [accepted, List.takeWhile_nil, settings.overlay_nil]; exact holds⟩
  | cons record records ih =>
      cases short : record.short with
      | true =>
          have stopped := loadRecord_short short m
          have none_ : accepted (record :: records) = [] := by simp [accepted, short]
          simp only [loadRecords, stopped, List.any_cons, short, Bool.true_or, if_true, none_,
            settings.overlay_nil, true_and]
          exact holds
      | false =>
          obtain ⟨succeeded, next⟩ := loadRecord_holds short holds
          have rest : accepted (record :: records) = record :: accepted records := by
            simp [accepted, short]
          obtain ⟨verdict, reached⟩ := ih next
          rw [settings.overlay_append, List.singleton_append] at reached
          cases outcome : loadRecord m record with
          | mk status loaded =>
              rw [outcome] at succeeded verdict reached
              simp only at succeeded
              subst succeeded
              simp only [loadRecords, outcome, List.any_cons, short, Bool.false_or, rest]
              exact ⟨verdict, reached⟩

theorem decodeBlobLocked_holds (blob : List UInt8) {m : Manager} {settings : Settings}
    (holds : m.Holds settings) :
    (decodeBlobLocked m blob).1 =
        (if (tlvFormat.scan blob).1.any TlvRecord.short || (tlvFormat.scan blob).2.isSome then
          .error .errCodec else .ok ()) ∧
      (decodeBlobLocked m blob).2.Holds (settings.overlay (accepted (tlvFormat.scan blob).1)) := by
  obtain ⟨verdict, reached⟩ := loadRecords_holds (tlvFormat.scan blob).1 holds
  rw [decodeBlobLocked_eq]
  cases outcome : loadRecords (tlvFormat.scan blob).1 m with
  | mk status loaded =>
      rw [outcome] at verdict reached
      simp only at verdict reached
      subst verdict
      cases short : (tlvFormat.scan blob).1.any TlvRecord.short with
      | true => exact ⟨by simp, reached⟩
      | false => exact ⟨by cases (tlvFormat.scan blob).2 <;> simp, reached⟩

end ConfigWp
