import ConfigWp.Application.ConfigValid
import Mathlib.Data.List.TakeWhile

/-! States the wire can carry. Such a state is read back from its own payload, and
every state a boot leaves is one. -/

set_option autoImplicit false

namespace ConfigWp

namespace Settings

/-- Every entry survives the wire, and the preserved records are unrecognised
ones that fit the store. -/
structure Storable (settings : Settings) : Prop where
  wireable : ∀ key, Wireable key.domain (settings.cache.get key)
  foreign : ∀ record ∈ settings.preserved, record.unrecognised = true
  room : recordsSize settings.preserved ≤ unknownBufBytes

theorem storable_load (records : List TlvRecord) : (load records).Storable where
  wireable := by
    intro key
    rw [get_load]
    cases Overlay.last TlvRecord.entry key records with
    | none => exact wireable_default key.domain
    | some record => exact wireable_get key.domain record.value
  foreign := by
    intro record member
    rw [preserved_load] at member
    have kept := (Packing.keep_sublist _ _ _).subset member
    exact (List.mem_filter.mp kept).2
  room := by
    rw [preserved_load]
    exact Packing.total_keep_le _ _ _

theorem load_nil : load [] = .defaults := overlay_nil _

theorem storable_defaults : defaults.Storable := load_nil ▸ storable_load []

theorem storable_boot (payload : Option (List UInt8)) : (boot payload).Storable := by
  cases payload with
  | none => exact storable_defaults
  | some payload => exact storable_load _

def set (settings : Settings) (key : RecordKey) (record : key.domain.Record) : Settings :=
  { settings with cache := settings.cache.set key record }

theorem Storable.set {settings : Settings} (storable : settings.Storable) {key : RecordKey}
    {record : key.domain.Record} (valid : validate key.domain record = true) :
    (settings.set key record).Storable where
  wireable := by
    intro other
    by_cases same : other = key
    · subst same
      rw [Settings.set, ConfigCache.get_set_same]
      exact wireable_of_validate valid
    · rw [Settings.set, ConfigCache.get_set_other _ _ same]
      exact storable.wireable other
  foreign := storable.foreign
  room := storable.room

end Settings

/-! The payload of a state is read back as that state. -/

theorem knownRecord_entry (cache : ConfigCache) (key : RecordKey) :
    (knownRecord cache key).entry = some key := entryOf_tag key

theorem knownRecord_long (cache : ConfigCache) (key : RecordKey) :
    (knownRecord cache key).short = false := by
  rw [TlvRecord.short, knownRecord_entry]
  simp [knownRecord, length_put]

theorem unrecognised_long {record : TlvRecord} (foreign : record.unrecognised = true) :
    record.short = false := by
  rw [TlvRecord.unrecognised, Option.isNone_iff_eq_none] at foreign
  rw [TlvRecord.short, foreign]

theorem unrecognised_knownRecords (cache : ConfigCache) :
    unrecognised (knownRecords cache) = [] := by
  refine List.filter_eq_nil_iff.mpr fun record member => ?_
  obtain ⟨key, -, rfl⟩ := List.mem_map.mp member
  simp [TlvRecord.unrecognised, knownRecord_entry]

theorem unrecognised_of_foreign {records : List TlvRecord}
    (foreign : ∀ record ∈ records, record.unrecognised = true) : unrecognised records = records :=
  List.filter_eq_self.mpr foreign

theorem accepted_eq_self {records : List TlvRecord} (long : records.any TlvRecord.short = false) :
    accepted records = records := by
  rw [List.any_eq_false] at long
  exact List.takeWhile_eq_self_iff.mpr fun record member => by simpa using long record member

theorem last_foreign {records : List TlvRecord}
    (foreign : ∀ record ∈ records, record.unrecognised = true) (key : RecordKey) :
    Overlay.last TlvRecord.entry key records = none := by
  refine (Overlay.last_eq_none_iff TlvRecord.entry).mpr fun record member addressed => ?_
  have unknown := foreign record member
  rw [TlvRecord.unrecognised, addressed] at unknown
  cases unknown

theorem last_knownRecords (cache : ConfigCache) (key : RecordKey) :
    Overlay.last TlvRecord.entry key (knownRecords cache) = some (knownRecord cache key) := by
  cases found : Overlay.last TlvRecord.entry key (knownRecords cache) with
  | none =>
      have absent := (Overlay.last_eq_none_iff TlvRecord.entry).mp found (knownRecord cache key)
        (List.mem_map_of_mem (mem_recordKeys key))
      exact absurd (knownRecord_entry cache key) absent
  | some record =>
      obtain ⟨member, addressed⟩ := Overlay.last_mem TlvRecord.entry found
      obtain ⟨other, -, rfl⟩ := List.mem_map.mp member
      rw [knownRecord_entry] at addressed
      rw [Option.some.inj addressed]

namespace Settings

theorem Storable.records_long {settings : Settings} (storable : settings.Storable) :
    settings.records.any TlvRecord.short = false := by
  rw [List.any_eq_false]
  intro record member
  rcases List.mem_append.mp member with known | foreign
  · obtain ⟨key, -, rfl⟩ := List.mem_map.mp known
    simp [knownRecord_long]
  · simp [unrecognised_long (storable.foreign record foreign)]

/-- Loading the records of a state gives the state back. -/
theorem Storable.load_records {settings : Settings} (storable : settings.Storable) :
    load settings.records = settings := by
  have cache : (load settings.records).cache = settings.cache := by
    refine ConfigCache.ext_get fun key => ?_
    rw [get_load, records, Overlay.last_append, last_foreign storable.foreign, Option.none_or,
      last_knownRecords]
    have back := get_put (storable.wireable key) []
    rwa [List.append_nil] at back
  have preserved : (load settings.records).preserved = settings.preserved := by
    rw [preserved_load, packed, records, unrecognised, List.filter_append, ← unrecognised,
      ← unrecognised, unrecognised_knownRecords, List.nil_append,
      unrecognised_of_foreign storable.foreign]
    exact Packing.keep_eq_self _ storable.room
  cases loaded : load settings.records
  cases settings
  simp_all

theorem payloadRecords_payload (settings : Settings) :
    payloadRecords settings.payload = settings.records ∧ payloadClean settings.payload = true := by
  have scanned := tlvFormat.scan_encodeAll settings.records
  rw [← payload] at scanned
  rw [payloadRecords, payloadClean, scanned]
  exact ⟨rfl, rfl⟩

theorem Storable.boot_payload {settings : Settings} (storable : settings.Storable) :
    boot (some settings.payload) = settings ∧ bootStatus settings.payload = .ok () := by
  obtain ⟨scanned, clean⟩ := settings.payloadRecords_payload
  constructor
  · rw [boot, scanned, accepted_eq_self storable.records_long, storable.load_records]
  · rw [bootStatus, scanned, clean, storable.records_long]
    rfl

end Settings

end ConfigWp
