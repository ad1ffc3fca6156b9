import ConfigWp.Application.Persistence

/-! What a boot leaves behind when the stored payload is not one this firmware
wrote: records with values out of range, a payload that stops at a malformed or
short record, records of an older layout, and tags this firmware never emits. -/

set_option autoImplicit false

namespace ConfigWp

theorem configInit_holds {m : Manager} (fresh : m.initialised = false) (faults : SlotReadFaults)
    (storage : Storage) :
    (configInit true faults storage m).2.Holds
      (.load (accepted (storedRecords faults storage))) := by
  have holds := (configInit_boot fresh faults storage).2.1
  cases found : readPayload faults storage with
  | none =>
      rw [found] at holds
      rw [storedRecords, found, Option.map_none, Option.getD_none, accepted, List.takeWhile_nil,
        Settings.load_nil]
      exact holds
  | some payload =>
      rw [found] at holds
      rw [storedRecords, found, Option.map_some, Option.getD_some]
      exact holds

theorem configInit_stream {m : Manager} (fresh : m.initialised = false) {faults : SlotReadFaults}
    {storage : Storage} {records : List TlvRecord}
    (stored : readPayload faults storage = some (tlvFormat.encodeAll records)) :
    ((configInit true faults storage m).1 = .ok () ↔ records.any TlvRecord.short = false) ∧
      (configInit true faults storage m).2.Holds (.load (accepted records)) := by
  have holds := configInit_holds fresh faults storage
  have status := (configInit_boot fresh faults storage).2.2
  rw [stored] at status
  rw [storedRecords_stream stored] at holds
  refine ⟨?_, holds⟩
  simp only [status, bootStatus, payloadRecords, payloadClean, Framing.Format.scan_encodeAll]
  cases records.any TlvRecord.short <;> simp

def systemKey : RecordKey := ⟨.system, ⟨configCodecSystemIndex.toNat, by decide⟩⟩

/-! Values out of range. -/

/-- Every entry is valid after a boot exactly when the last record loaded for each
entry has its value in range: the loader itself checks nothing. -/
theorem configInit_valid_iff {m : Manager} (fresh : m.initialised = false)
    (faults : SlotReadFaults) (storage : Storage) :
    (∀ key, validate key.domain ((configInit true faults storage m).2.cache.get key) = true) ↔
      ∀ key record,
        Overlay.last TlvRecord.entry key (accepted (storedRecords faults storage)) = some record →
          WireInRange key.domain record.value := by
  obtain ⟨cache, -⟩ := configInit_holds fresh faults storage
  rw [cache]
  refine forall_congr' fun key => ?_
  rw [Settings.get_load]
  cases last : Overlay.last TlvRecord.entry key (accepted (storedRecords faults storage)) with
  | none => simp [validate_default]
  | some record =>
      rw [validate_get_iff]
      exact ⟨fun inRange other same => Option.some.inj same ▸ inRange, fun all => all record rfl⟩

def zeroDivisorStorage : Storage :=
  (slotWrite .none storageInit (tlvRecordBytes 0x0300 (List.replicate 38 0))).2

theorem configInit_installs_zeroDivisor :
    (configInit true .none zeroDivisorStorage .powerUp).1 = .ok () ∧
      ¬∀ key, validate key.domain
        ((configInit true .none zeroDivisorStorage .powerUp).2.cache.get key) = true := by
  have loaded : (configInit true .none zeroDivisorStorage .powerUp).1 = .ok () ∧
      ¬validate (RecordKey.mk .ai ⟨0, by decide⟩).domain
        ((configInit true .none zeroDivisorStorage .powerUp).2.cache.get
          ⟨.ai, ⟨0, by decide⟩⟩) = true := by
    decide +kernel
  exact ⟨loaded.1, fun all => loaded.2 (all ⟨.ai, ⟨0, by decide⟩⟩)⟩

theorem entry_newerRecords {record : TlvRecord} {key : RecordKey} (member : record ∈ newerRecords)
    (addressed : record.entry = some key) : record = nodeRecord ∧ key = systemKey := by
  have known : ∀ record ∈ newerRecords, record.entry = none ∨ record = nodeRecord := by decide
  have node : nodeRecord.entry = some systemKey := by decide
  rcases known record member with foreign | rfl
  · rw [foreign] at addressed
    cases addressed
  · exact ⟨rfl, Option.some.inj (addressed.symm.trans node)⟩

theorem configInit_valid_newer :
    (configInit true .none newerStorage .powerUp).1 = .ok () ∧
      ∀ key, validate key.domain
        ((configInit true .none newerStorage .powerUp).2.cache.get key) = true := by
  refine ⟨newerStorage_loaded, ?_⟩
  refine (configInit_valid_iff rfl .none newerStorage).mpr fun key record last => ?_
  rw [storedRecords_stream newerStorage_stored] at last
  obtain ⟨member, addressed⟩ := Overlay.last_mem TlvRecord.entry last
  obtain ⟨rfl, rfl⟩ := entry_newerRecords ((List.takeWhile_prefix _).subset member) addressed
  decide

/-! Payloads that fail to load. -/

/-- What is loaded in front of the first short or malformed record spells out the
defaults, and every unrecognised record of it is too large for the store. -/
structure LeavesDefaults (records : List TlvRecord) : Prop where
  known : ∀ key record, Overlay.last TlvRecord.entry key (accepted records) = some record →
    key.domain.get record.value = key.domain.default
  foreign : ∀ record ∈ unrecognised (accepted records), unknownBufBytes < record.size

theorem leavesDefaults_iff {records : List TlvRecord} {m : Manager}
    (holds : m.Holds (.load (accepted records))) :
    ((∀ key, m.cache.get key = key.domain.default) ∧ m.unknown.used = 0) ↔
      LeavesDefaults records := by
  have known : (∀ key, m.cache.get key = key.domain.default) ↔
      ∀ key record, Overlay.last TlvRecord.entry key (accepted records) = some record →
        key.domain.get record.value = key.domain.default := by
    rw [holds.1]
    refine forall_congr' fun key => ?_
    rw [Settings.get_load]
    cases Overlay.last TlvRecord.entry key (accepted records) with
    | none => simp
    | some record => simp
  have foreign : m.unknown.used = 0 ↔
      ∀ record ∈ unrecognised (accepted records), unknownBufBytes < record.size := by
    rw [holds.used, Settings.preserved_load, recordsSize, packed, ← Packing.keep_eq_nil_iff,
      Packing.total_eq_zero_iff TlvRecord.size TlvRecord.size_pos]
  rw [known, foreign]
  exact ⟨fun both => ⟨both.1, both.2⟩, fun both => ⟨both.known, both.foreign⟩⟩

/-- A boot that reports a codec error has restored the defaults exactly when
nothing else was loaded before the error: the loader does not roll back. -/
theorem configInit_codec_defaults_iff {m : Manager} (fresh : m.initialised = false)
    {faults : SlotReadFaults} {storage : Storage} {payload : List UInt8}
    (found : readPayload faults storage = some payload) :
    ((configInit true faults storage m).1 = .error .errCodec →
        (∀ key, (configInit true faults storage m).2.cache.get key = key.domain.default) ∧
          (configInit true faults storage m).2.unknown.used = 0) ↔
      ((payloadRecords payload).any TlvRecord.short = false ∧ payloadClean payload = true) ∨
        LeavesDefaults (payloadRecords payload) := by
  have holds := configInit_holds fresh faults storage
  have status := (configInit_boot fresh faults storage).2.2
  rw [found] at status
  rw [storedRecords, found, Option.map_some, Option.getD_some] at holds
  rw [leavesDefaults_iff holds, status, bootStatus]
  cases (payloadRecords payload).any TlvRecord.short <;> cases payloadClean payload <;> simp

def truncatedStorage : Storage :=
  (slotWrite .none storageInit
    (tlvRecordBytes 0xF000 (putSystem { systemDefault with canopenNodeId := 5 }) ++ [0])).2

theorem configInit_codec_keeps_prefix :
    (configInit true .none truncatedStorage .powerUp).1 = .error .errCodec ∧
      ¬((∀ key, (configInit true .none truncatedStorage .powerUp).2.cache.get key =
          key.domain.default) ∧
        (configInit true .none truncatedStorage .powerUp).2.unknown.used = 0) := by
  have loaded : (configInit true .none truncatedStorage .powerUp).1 = .error .errCodec ∧
      ¬(configInit true .none truncatedStorage .powerUp).2.cache.get systemKey =
        systemKey.domain.default := by
    decide +kernel
  exact ⟨loaded.1, fun restored => loaded.2 (restored.1 systemKey)⟩

def brokenStorage : Storage := (slotWrite .none storageInit [0]).2

theorem configInit_codec_defaults_broken :
    (configInit true .none brokenStorage .powerUp).1 = .error .errCodec ∧
      (∀ key, (configInit true .none brokenStorage .powerUp).2.cache.get key =
          key.domain.default) ∧
        (configInit true .none brokenStorage .powerUp).2.unknown.used = 0 := by
  have failed : (configInit true .none brokenStorage .powerUp).1 = .error .errCodec := by
    decide +kernel
  have found : readPayload .none brokenStorage = some [0] := by decide +kernel
  have empty : payloadRecords [0] = [] := by decide
  refine ⟨failed, (configInit_codec_defaults_iff rfl found).mpr (.inr ?_) failed⟩
  rw [empty]
  constructor
  · intro key record last
    cases last
  · intro record member
    cases member

/-! Short records. -/

def refused (records : List TlvRecord) : List TlvRecord :=
  records.dropWhile fun record => !record.short

theorem accepted_append_refused (records : List TlvRecord) :
    accepted records ++ refused records = records := List.takeWhile_append_dropWhile

theorem accepted_long {records : List TlvRecord} {record : TlvRecord}
    (member : record ∈ accepted records) : record.short = false := by
  simpa using List.mem_takeWhile_imp member

/-- What a record says about its entry, a short one being as good as none. -/
def valueOf (domain : Domain) (record : TlvRecord) : domain.Record :=
  if record.short then domain.default else domain.get record.value

/-- The short records of a stream cost nothing but themselves. -/
structure SparesRest (records : List TlvRecord) : Prop where
  /-- A record loaded under another tag for the same entry says the same as the only
  one under the entry's own tag. -/
  loaded : ∀ key record, (records.filter fun other => other.tag = key.tag) = [record] →
    ∀ other, Overlay.last TlvRecord.entry key (accepted records) = some other →
      other.tag ≠ key.tag → key.domain.get other.value = valueOf key.domain record
  /-- The only record of an entry, when it is not loaded, spells out the default. -/
  lost : ∀ key record, (records.filter fun other => other.tag = key.tag) = [record] →
    Overlay.last TlvRecord.entry key (accepted records) = none → record.short = false →
      key.domain.get record.value = key.domain.default
  /-- No unrecognised record that is not loaded would have fitted the store. -/
  foreign : ∀ record ∈ unrecognised (refused records),
    unknownBufBytes - recordsSize (packed unknownBufBytes (accepted records)) < record.size

theorem packed_append (room : Nat) (left right : List TlvRecord) :
    packed room (left ++ right) =
      packed room left ++ packed (room - recordsSize (packed room left)) right := by
  rw [packed, unrecognised, List.filter_append]
  exact Packing.keep_append TlvRecord.size room _ _

theorem preserved_eq_iff {records : List TlvRecord} {m : Manager}
    (holds : m.Holds (.load (accepted records))) (kept : List TlvRecord) :
    m.unknown.bytes = tlvFormat.encodeAll kept ↔
      packed unknownBufBytes (accepted records) = kept := by
  rw [holds.2, Settings.preserved_load]
  exact tlvFormat.encodeAll_injective.eq_iff

theorem sparesRest_iff {records : List TlvRecord} {m : Manager}
    (holds : m.Holds (.load (accepted records))) :
    ((∀ key record, (records.filter fun other => other.tag = key.tag) = [record] →
        m.cache.get key = valueOf key.domain record) ∧
      m.unknown.bytes = tlvFormat.encodeAll (packed unknownBufBytes records)) ↔
      SparesRest records := by
  have foreign : m.unknown.bytes = tlvFormat.encodeAll (packed unknownBufBytes records) ↔
      ∀ record ∈ unrecognised (refused records),
        unknownBufBytes - recordsSize (packed unknownBufBytes (accepted records)) <
          record.size := by
    have split := packed_append unknownBufBytes (accepted records) (refused records)
    rw [accepted_append_refused] at split
    rw [preserved_eq_iff holds, split, List.self_eq_append_right, packed, Packing.keep_eq_nil_iff]
  rw [foreign, holds.1]
  constructor
  · rintro ⟨values, room⟩
    refine ⟨?_, ?_, room⟩
    · intro key record sole other last _
      have value := values key record sole
      rw [Settings.get_load, last] at value
      exact value
    · intro key record sole last long
      have value := values key record sole
      rw [Settings.get_load, last, valueOf, long] at value
      exact value.symm
  · rintro ⟨loaded, lost, room⟩
    refine ⟨?_, room⟩
    intro key record sole
    rw [Settings.get_load]
    cases last : Overlay.last TlvRecord.entry key (accepted records) with
    | none =>
        cases short : record.short with
        | true => simp [valueOf, short]
        | false => simpa [valueOf, short] using (lost key record sole last short).symm
    | some other =>
        by_cases own : other.tag = key.tag
        · obtain ⟨member, -⟩ := Overlay.last_mem TlvRecord.entry last
          have found : other ∈ records.filter fun other => other.tag = key.tag :=
            List.mem_filter.mpr ⟨(List.takeWhile_prefix _).subset member, by simp [own]⟩
          rw [sole, List.mem_singleton] at found
          subst found
          simp [valueOf, accepted_long member]
        · exact loaded key record sole other last own

/-- A boot from a well-formed stream takes every record but the short ones exactly
when the records behind the first short one have nothing to add: the loader stops
there. -/
theorem configInit_spares_iff {m : Manager} (fresh : m.initialised = false)
    {faults : SlotReadFaults} {storage : Storage} {records : List TlvRecord}
    (stored : readPayload faults storage = some (tlvFormat.encodeAll records)) :
    ((∀ key record, (records.filter fun other => other.tag = key.tag) = [record] →
        (configInit true faults storage m).2.cache.get key = valueOf key.domain record) ∧
      (configInit true faults storage m).2.unknown.bytes =
        tlvFormat.encodeAll (packed unknownBufBytes records)) ↔
      SparesRest records :=
  sparesRest_iff (configInit_stream fresh stored).2

/-- A digital input record one byte short, as an older firmware may have written it,
in front of a good system record. -/
def olderRecords : List TlvRecord :=
  [⟨0x0000, List.replicate 22 0, by decide⟩,
    ⟨0xF000, putSystem { systemDefault with canopenNodeId := 5 }, by decide⟩]

def olderStorage : Storage := (slotWrite .none storageInit (tlvFormat.encodeAll olderRecords)).2

theorem configInit_drops_after_short :
    readPayload .none olderStorage = some (tlvFormat.encodeAll olderRecords) ∧
      ¬((∀ key record, (olderRecords.filter fun other => other.tag = key.tag) = [record] →
          (configInit true .none olderStorage .powerUp).2.cache.get key =
            valueOf key.domain record) ∧
        (configInit true .none olderStorage .powerUp).2.unknown.bytes =
          tlvFormat.encodeAll (packed unknownBufBytes olderRecords)) := by
  have stored : readPayload .none olderStorage = some (tlvFormat.encodeAll olderRecords) := by
    decide +kernel
  have lost : ¬(configInit true .none olderStorage .powerUp).2.cache.get systemKey =
      valueOf systemKey.domain
        ⟨0xF000, putSystem { systemDefault with canopenNodeId := 5 }, by decide⟩ := by
    decide +kernel
  exact ⟨stored, fun spared => lost (spared.1 systemKey _ (by decide))⟩

/-- A short record with nothing behind it. -/
def shortRecord : TlvRecord := ⟨0x0000, List.replicate 22 0, by decide⟩

def sparedRecords : List TlvRecord := newerRecords ++ [shortRecord]

def sparedStorage : Storage := (slotWrite .none storageInit (tlvFormat.encodeAll sparedRecords)).2

theorem sparedStorage_stored :
    readPayload .none sparedStorage = some (tlvFormat.encodeAll sparedRecords) := by
  decide +kernel

theorem accepted_sparedRecords : accepted sparedRecords = newerRecords := by decide

theorem configInit_spares_newer :
    (∀ key record, (sparedRecords.filter fun other => other.tag = key.tag) = [record] →
        (configInit true .none sparedStorage .powerUp).2.cache.get key =
          valueOf key.domain record) ∧
      (configInit true .none sparedStorage .powerUp).2.unknown.bytes =
        tlvFormat.encodeAll (packed unknownBufBytes sparedRecords) := by
  refine (configInit_spares_iff rfl sparedStorage_stored).mpr ?_
  refine ⟨?_, ?_, by decide⟩
  · intro key record _ other last apart
    rw [accepted_sparedRecords] at last
    obtain ⟨member, addressed⟩ := Overlay.last_mem TlvRecord.entry last
    obtain ⟨rfl, rfl⟩ := entry_newerRecords member addressed
    exact absurd rfl apart
  · intro key record sole last long
    rw [accepted_sparedRecords, Overlay.last_eq_none_iff] at last
    have member : record ∈ [record] := List.mem_singleton.mpr rfl
    rw [← sole, List.mem_filter] at member
    have addressed : record.entry = some key := by
      rw [TlvRecord.entry, of_decide_eq_true member.2, entryOf_tag]
    rcases List.mem_append.mp member.1 with newer | short
    · exact absurd addressed (last record newer)
    · rw [List.mem_singleton.mp short] at long
      exact absurd long (by decide)

/-! Tags. -/

def TlvRecord.emitted (record : TlvRecord) : Bool :=
  recordKeys.any fun key => key.tag == record.tag

/-- The tag is of the system domain with an index other than the one a save writes. -/
def TlvRecord.stray (record : TlvRecord) : Bool :=
  configCodecTagDomain record.tag == configCodecDomainSystem &&
    configCodecTagIndex record.tag != configCodecSystemIndex

def lastTagged (tag : UInt16) (records : List TlvRecord) : Option TlvRecord :=
  (records.filter fun record => record.tag = tag).getLast?

def loadedFrom (domain : Domain) : Option TlvRecord → domain.Record
  | none => domain.default
  | some record => domain.get record.value

theorem emitted_iff {record : TlvRecord} :
    record.emitted = true ↔ ∃ key : RecordKey, key.tag = record.tag := by
  simp [TlvRecord.emitted, mem_recordKeys]

theorem entry_stray {record : TlvRecord} (stray : record.stray = true) :
    record.entry = some systemKey := by
  simp only [TlvRecord.stray, Bool.and_eq_true, beq_iff_eq] at stray
  rw [TlvRecord.entry, entryOf, stray.1]
  rfl

theorem tag_of_entry {record : TlvRecord} {key : RecordKey} (addressed : record.entry = some key)
    (own : record.stray = false) : record.tag = key.tag := by
  have whole := configCodecMakeTag_split record.tag
  rw [TlvRecord.entry, entryOf, Option.bind_eq_some_iff] at addressed
  obtain ⟨domain, known, entry⟩ := addressed
  have code := Domain.code_of_ofCode? known
  rw [← code] at whole
  cases domain with
  | system =>
      obtain rfl := Option.some.inj entry
      rw [TlvRecord.stray, ← code] at own
      have index : configCodecTagIndex record.tag = configCodecSystemIndex := by
        simpa [Domain.code] using own
      rw [← whole, index]
      rfl
  | _ =>
      rw [Domain.entryAt_indexed (by decide), Option.dite_none_right_eq_some] at entry
      obtain ⟨inside, entry⟩ := entry
      obtain rfl := Option.some.inj entry
      exact whole.symm.trans (by simp only [RecordKey.tag, UInt8.ofNat_toNat])

theorem entry_eq_some_iff {record : TlvRecord} {key : RecordKey} :
    record.entry = some key ↔ record.tag = key.tag ∨ record.stray = true ∧ key = systemKey := by
  constructor
  · intro addressed
    cases stray : record.stray with
    | false => exact .inl (tag_of_entry addressed stray)
    | true =>
        rw [entry_stray stray] at addressed
        exact .inr ⟨rfl, (Option.some.inj addressed).symm⟩
  · rintro (own | ⟨stray, rfl⟩)
    · rw [TlvRecord.entry, own, entryOf_tag]
    · exact entry_stray stray

theorem unrecognised_iff {record : TlvRecord} :
    record.unrecognised = true ↔ record.emitted = false ∧ record.stray = false := by
  rw [TlvRecord.unrecognised, Option.isNone_iff_eq_none, Option.eq_none_iff_forall_ne_some]
  simp only [ne_eq, entry_eq_some_iff, not_or, not_and]
  constructor
  · intro unknown
    rw [Bool.eq_false_iff, Bool.eq_false_iff]
    constructor
    · intro emitted
      obtain ⟨key, same⟩ := emitted_iff.mp emitted
      exact (unknown key).1 same.symm
    · intro stray
      exact (unknown systemKey).2 stray rfl
  · rintro ⟨emitted, stray⟩ key
    constructor
    · intro own
      exact Bool.eq_false_iff.mp emitted (emitted_iff.mpr ⟨key, own.symm⟩)
    · intro foreign
      exact absurd (stray.symm.trans foreign) Bool.false_ne_true

theorem short_iff {record : TlvRecord} :
    record.short = true ↔
      ∃ key, record.entry = some key ∧ record.value.length < key.domain.wireSize := by
  rw [TlvRecord.short]
  cases record.entry <;> simp

theorem get_load_eq (records : List TlvRecord) (key : RecordKey) :
    (Settings.load records).cache.get key =
      loadedFrom key.domain (Overlay.last TlvRecord.entry key records) := by
  rw [Settings.get_load]
  cases Overlay.last TlvRecord.entry key records <;> rfl

/-- An entry other than the system record is addressed by its own tag only. -/
theorem last_entry_eq {key : RecordKey} (indexed : key ≠ systemKey) (records : List TlvRecord) :
    Overlay.last TlvRecord.entry key records = lastTagged key.tag records := by
  have same : ∀ record : TlvRecord, record.entry = some key ↔ record.tag = key.tag := by
    intro record
    rw [entry_eq_some_iff]
    exact or_iff_left fun stray => indexed stray.2
  simp only [Overlay.last, lastTagged, same]

/-- The strays of a stream do no harm. -/
structure StraysHarmless (records : List TlvRecord) : Prop where
  long : ∀ record ∈ records, record.stray = true → configCodecSystemWireSize ≤ record.value.length
  system : loadedFrom .system (Overlay.last TlvRecord.entry systemKey records) =
    loadedFrom .system (lastTagged systemKey.tag records)
  dropped : ∀ record ∈ Packing.keep TlvRecord.size unknownBufBytes
    (records.filter fun record => !record.emitted), record.stray = false

theorem noShort_iff {records : List TlvRecord}
    (long : ∀ key : RecordKey, ∀ record ∈ records, record.tag = key.tag →
      key.domain.wireSize ≤ record.value.length) :
    records.any TlvRecord.short = false ↔
      ∀ record ∈ records, record.stray = true →
        configCodecSystemWireSize ≤ record.value.length := by
  simp only [List.any_eq_false, short_iff, not_exists, not_and, Nat.not_lt]
  constructor
  · intro all record member stray
    exact all record member systemKey (entry_stray stray)
  · intro strays record member key addressed
    rcases entry_eq_some_iff.mp addressed with own | ⟨stray, rfl⟩
    · exact long key record member own
    · exact strays record member stray

theorem last_loaded_iff {records : List TlvRecord} :
    (∀ key, loadedFrom key.domain (Overlay.last TlvRecord.entry key records) =
        loadedFrom key.domain (lastTagged key.tag records)) ↔
      loadedFrom .system (Overlay.last TlvRecord.entry systemKey records) =
        loadedFrom .system (lastTagged systemKey.tag records) := by
  constructor
  · intro all
    exact all systemKey
  · intro system key
    by_cases indexed : key = systemKey
    · subst indexed
      exact system
    · rw [last_entry_eq indexed]

theorem packed_eq_iff {records : List TlvRecord} :
    packed unknownBufBytes records = Packing.keep TlvRecord.size unknownBufBytes
        (records.filter fun record => !record.emitted) ↔
      ∀ record ∈ Packing.keep TlvRecord.size unknownBufBytes
        (records.filter fun record => !record.emitted), record.stray = false := by
  have split : unrecognised records =
      (records.filter fun record => !record.emitted).filter fun record => !record.stray := by
    rw [List.filter_filter]
    refine List.filter_congr fun record _ => Bool.eq_iff_iff.mpr ?_
    rw [unrecognised_iff]
    simp [and_comm]
  rw [packed, split, Packing.keep_filter_eq_iff]
  simp

/-- A boot from a well-formed stream whose known records are long enough dispatches
by exact tag exactly when its strays do no harm: the loader takes every tag of the
system domain for the system record. -/
theorem configInit_exact_iff {m : Manager} (fresh : m.initialised = false)
    {faults : SlotReadFaults} {storage : Storage} {records : List TlvRecord}
    (stored : readPayload faults storage = some (tlvFormat.encodeAll records))
    (long : ∀ key : RecordKey, ∀ record ∈ records, record.tag = key.tag →
      key.domain.wireSize ≤ record.value.length) :
    ((configInit true faults storage m).1 = .ok () ∧
      (∀ key, (configInit true faults storage m).2.cache.get key =
        loadedFrom key.domain (lastTagged key.tag records)) ∧
      (configInit true faults storage m).2.unknown.bytes =
        tlvFormat.encodeAll (Packing.keep TlvRecord.size unknownBufBytes
          (records.filter fun record => !record.emitted))) ↔
      StraysHarmless records := by
  obtain ⟨status, holds⟩ := configInit_stream fresh stored
  rw [status, preserved_eq_iff holds, holds.1]
  have whole : records.any TlvRecord.short = false → accepted records = records := accepted_eq_self
  constructor
  · rintro ⟨noShort, values, kept⟩
    simp only [whole noShort, get_load_eq] at values kept
    exact ⟨(noShort_iff long).mp noShort, last_loaded_iff.mp values, packed_eq_iff.mp kept⟩
  · rintro ⟨strays, system, dropped⟩
    have noShort := (noShort_iff long).mpr strays
    simp only [whole noShort, get_load_eq]
    exact ⟨noShort, last_loaded_iff.mpr system, packed_eq_iff.mpr dropped⟩

/-- Two records of the system domain, the second under an index that is never saved. -/
def strayRecords : List TlvRecord :=
  [⟨0xF000, putSystem { systemDefault with canopenNodeId := 5 }, by decide⟩,
    ⟨0xF001, putSystem { systemDefault with canopenNodeId := 9 }, by decide⟩]

def strayStorage : Storage := (slotWrite .none storageInit (tlvFormat.encodeAll strayRecords)).2

theorem configInit_takes_stray :
    readPayload .none strayStorage = some (tlvFormat.encodeAll strayRecords) ∧
      (∀ key : RecordKey, ∀ record ∈ strayRecords, record.tag = key.tag →
        key.domain.wireSize ≤ record.value.length) ∧
      ¬((configInit true .none strayStorage .powerUp).1 = .ok () ∧
        (∀ key, (configInit true .none strayStorage .powerUp).2.cache.get key =
          loadedFrom key.domain (lastTagged key.tag strayRecords)) ∧
        (configInit true .none strayStorage .powerUp).2.unknown.bytes =
          tlvFormat.encodeAll (Packing.keep TlvRecord.size unknownBufBytes
            (strayRecords.filter fun record => !record.emitted))) := by
  have stored : readPayload .none strayStorage = some (tlvFormat.encodeAll strayRecords) := by
    decide +kernel
  have overwritten : ¬(configInit true .none strayStorage .powerUp).2.cache.get systemKey =
      loadedFrom systemKey.domain (lastTagged systemKey.tag strayRecords) := by
    decide +kernel
  refine ⟨stored, fun key record member own => ?_, fun exact_ => overwritten (exact_.2.1 systemKey)⟩
  have sizes : ∀ record ∈ strayRecords, record.value.length = 13 ∧ record.short = false := by
    decide
  have short := (sizes record member).2
  rw [TlvRecord.short, TlvRecord.entry, own, entryOf_tag] at short
  simpa using short

theorem configInit_exact_newer :
    (configInit true .none newerStorage .powerUp).1 = .ok () ∧
      (∀ key, (configInit true .none newerStorage .powerUp).2.cache.get key =
        loadedFrom key.domain (lastTagged key.tag newerRecords)) ∧
      (configInit true .none newerStorage .powerUp).2.unknown.bytes =
        tlvFormat.encodeAll (Packing.keep TlvRecord.size unknownBufBytes
          (newerRecords.filter fun record => !record.emitted)) := by
  refine (configInit_exact_iff rfl newerStorage_stored fun key record member own => ?_).mpr ?_
  · have addressed : record.entry = some key := by rw [TlvRecord.entry, own, entryOf_tag]
    obtain ⟨rfl, rfl⟩ := entry_newerRecords member addressed
    decide
  · exact ⟨by decide, by decide, by decide⟩

end ConfigWp
