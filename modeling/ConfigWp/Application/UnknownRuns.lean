import ConfigWp.Application.Storable

/-! The store of unrecognised records over whole runs. Whatever the storage holds and
whatever calls are made, the store is a concatenation of complete records that nothing in
the cache answers to, so the byte walk that writes it out again loses none of it. -/

set_option autoImplicit false

namespace ConfigWp

/-- A record of a domain nobody knows, or of a channel beyond the last one. -/
def TlvRecord.Foreign (record : TlvRecord) : Prop :=
  (∀ domain : Domain, configCodecTagDomain record.tag ≠ domain.code) ∨
    ∃ domain : Domain, domain ≠ .system ∧ configCodecTagDomain record.tag = domain.code ∧
      domain.count ≤ (configCodecTagIndex record.tag).toNat

theorem foreign_iff {record : TlvRecord} : record.unrecognised = true ↔ record.Foreign := by
  rw [TlvRecord.unrecognised, TlvRecord.entry, entryOf]
  cases known : Domain.ofCode? (configCodecTagDomain record.tag) with
  | none =>
      have other := Domain.ne_code_of_ofCode? known
      exact ⟨fun _ => .inl other, fun _ => rfl⟩
  | some domain =>
      have code := Domain.code_of_ofCode? known
      rw [Option.bind_some]
      constructor
      · intro absent
        by_cases indexed : domain = .system
        · subst indexed
          cases absent
        · rw [Domain.entryAt_indexed indexed] at absent
          refine .inr ⟨domain, indexed, code.symm, Nat.not_lt.mp fun inside => ?_⟩
          rw [dif_pos inside] at absent
          cases absent
      · rintro (unknown | ⟨other, indexed, same, beyond⟩)
        · exact absurd code.symm (unknown domain)
        · obtain rfl := Domain.code_injective (code.trans same)
          rw [Domain.entryAt_indexed indexed, dif_neg (Nat.not_lt.mpr beyond)]
          rfl

/-! The invariant of the store. -/

/-- The used part of the store is a sequence of complete foreign records. -/
def UnknownStore.WellFormed (unknown : UnknownStore) : Prop :=
  ∃ records : List TlvRecord, unknown.bytes = tlvFormat.encodeAll records ∧
    ∀ record ∈ records, record.Foreign

theorem UnknownStore.wellFormed_clear (unknown : UnknownStore) : unknown.clear.WellFormed :=
  ⟨[], rfl, fun _ member => absurd member List.not_mem_nil⟩

theorem Manager.Holds.wellFormed {m : Manager} {settings : Settings} (holds : m.Holds settings)
    (storable : settings.Storable) : m.unknown.WellFormed :=
  ⟨settings.preserved, holds.2,
    fun record member => foreign_iff.mp (storable.foreign record member)⟩

/-- A boot fills the store anew, also when it stops at a record it cannot decode. -/
theorem configInit_wellFormed {m : Manager} (sound : m.unknown.WellFormed) (lockCreated : Bool)
    (faults : SlotReadFaults) (storage : Storage) :
    (configInit lockCreated faults storage m).2.unknown.WellFormed := by
  by_cases skipped : m.initialised = true ∨ lockCreated = false
  · rw [configInit_skipped faults storage skipped]
    exact sound
  · obtain ⟨fresh, created⟩ := not_or.mp skipped
    rw [Bool.not_eq_true] at fresh
    rw [Bool.not_eq_false] at created
    subst created
    obtain ⟨-, holds, -⟩ := configInit_boot fresh faults storage
    exact holds.wellFormed (Settings.storable_boot _)

theorem configDeinit_wellFormed {m : Manager} (sound : m.unknown.WellFormed) :
    (configDeinit m).unknown.WellFormed := by
  rw [configDeinit]
  split_ifs
  · exact sound
  · exact UnknownStore.wellFormed_clear m.unknown

theorem configSet_wellFormed {m : Manager} (sound : m.unknown.WellFormed) (domain : Domain)
    (idx : UInt8) (input : Option domain.Record) :
    (configSet m domain idx input).2.unknown.WellFormed := by
  have effect := configSet_effect m domain idx input
  generalize configSet m domain idx input = outcome at effect ⊢
  cases effect with
  | refused status => exact sound
  | stored key record ready valid => exact sound

theorem configResetDefaults_wellFormed {m : Manager} (sound : m.unknown.WellFormed) :
    (configResetDefaults m).2.unknown.WellFormed := by
  rw [configResetDefaults]
  split_ifs
  · exact sound
  · exact UnknownStore.wellFormed_clear m.unknown

theorem configCall_wellFormed (device : Device) (call : ConfigCall)
    (sound : device.manager.unknown.WellFormed) :
    (configCall device call).manager.unknown.WellFormed := by
  cases call with
  | init lockCreated faults =>
      exact configInit_wellFormed sound lockCreated faults device.storage
  | deinit => exact configDeinit_wellFormed sound
  | set domain idx input => exact configSet_wellFormed sound domain idx input
  | resetDefaults => exact configResetDefaults_wellFormed sound
  | save faults =>
      obtain ⟨-, kept, -⟩ := configSave_keeps faults device.storage device.manager
      exact (congrArg UnknownStore.WellFormed kept).mpr sound

theorem run_wellFormed (storage : Storage) (calls : List ConfigCall) :
    (Machine.run configCall ⟨storage, .powerUp⟩ calls).manager.unknown.WellFormed := by
  have start : Manager.powerUp.unknown.WellFormed :=
    ⟨[], rfl, fun _ member => absurd member List.not_mem_nil⟩
  exact Machine.run_invariant configCall start
    (fun device call (_ : True) sound => configCall_wellFormed device call sound)
    (fun _ _ => trivial)

/-! Writing the store out again. -/

/-- The known records always fit the payload buffer, and leave a usable writer. -/
theorem emitRecordsLocked_known (cache : ConfigCache) (blobBuf : BlobBuf) :
    ∃ w, emitRecordsLocked cache recordKeys (tlvWriterInit blobBuf.bytes) = (.ok (), w) ∧
      w.cap ≠ 0 := by
  have cap : (tlvWriterInit blobBuf.bytes).cap = slotPayloadMaxBytes := blobBuf.size_eq
  have usable : (tlvWriterInit blobBuf.bytes).cap ≠ 0 := by
    rw [cap]
    decide
  have room : (tlvWriterInit blobBuf.bytes).used +
      recordsSize (recordKeys.map (knownRecord cache)) ≤ (tlvWriterInit blobBuf.bytes).cap := by
    have start : (tlvWriterInit blobBuf.bytes).used = 0 := rfl
    rw [cap, ← knownRecords, recordsSize_knownRecords, start]
    decide
  obtain ⟨w, emitted, kept, -⟩ := emitRecordsLocked_spec cache usable room
  exact ⟨w, emitted, kept ▸ usable⟩

/-- Over a well-formed store the walk comes to its end or runs out of room; at its end it has
written the store out byte for byte. -/
theorem UnknownStore.WellFormed.walk {unknown : UnknownStore} (sound : unknown.WellFormed)
    {w : TlvWriter} (usable : w.cap ≠ 0) :
    (∃ next, reemitUnknownWalk unknown unknown.used 0 w = (.finished, next) ∧
        next.written = w.written ++ unknown.bytes) ∨
      (reemitUnknownWalk unknown unknown.used 0 w).1 = .refused .errNoSpace := by
  obtain ⟨records, bytes, -⟩ := sound
  have count : records.length ≤ unknown.used := by
    rw [← unknown.length_bytes, bytes, length_encodeAll_records]
    exact length_le_recordsSize records
  have walked := @reemitUnknownWalk_spec unknown unknown.used 0 w records usable bytes count
  by_cases room : w.used + recordsSize records ≤ w.cap
  · rw [if_pos room] at walked
    obtain ⟨next, finished, -, written⟩ := walked
    exact .inl ⟨next, finished, bytes ▸ written⟩
  · rw [if_neg room] at walked
    exact .inr walked

/-- In every state a run of calls reaches from any storage, the store is within its bound and
a sequence of complete foreign records, and the walk of the encoder over it ends at the end
of the store or for want of room, having written exactly the store in the first case. -/
theorem unknownStore_after_run (storage : Storage) (calls : List ConfigCall) :
    let m := (Machine.run configCall ⟨storage, .powerUp⟩ calls).manager
    m.unknown.used ≤ unknownBufBytes ∧
      (∃ records : List TlvRecord,
        m.unknown.buf.take m.unknown.used = tlvFormat.encodeAll records ∧
          ∀ record ∈ records, record.Foreign) ∧
      ∃ w, emitRecordsLocked m.cache recordKeys (tlvWriterInit m.blobBuf.bytes) = (.ok (), w) ∧
        reemitUnknownLocked m.unknown w =
          ((reemitUnknownWalk m.unknown m.unknown.used 0 w).1.status,
            (reemitUnknownWalk m.unknown m.unknown.used 0 w).2) ∧
        ((reemitUnknownWalk m.unknown m.unknown.used 0 w).1 = .finished ∨
          (reemitUnknownWalk m.unknown m.unknown.used 0 w).1 = .refused .errNoSpace) ∧
        ((reemitUnknownWalk m.unknown m.unknown.used 0 w).1 = .finished →
          (reemitUnknownWalk m.unknown m.unknown.used 0 w).2.written =
              w.written ++ m.unknown.buf.take m.unknown.used ∧
            (reemitUnknownWalk m.unknown m.unknown.used 0 w).2.used =
              w.used + m.unknown.used) := by
  intro m
  have sound : m.unknown.WellFormed := run_wellFormed storage calls
  obtain ⟨w, emitted, usable⟩ := emitRecordsLocked_known m.cache m.blobBuf
  refine ⟨m.unknown.used_le, sound, w, emitted, reemitUnknownLoop_eq _ _ _ _, ?_⟩
  rcases sound.walk usable with ⟨next, finished, written⟩ | refused
  · have used : next.used = w.used + m.unknown.used := by
      rw [← next.length_written, written, List.length_append, w.length_written,
        m.unknown.length_bytes]
    rw [finished]
    exact ⟨.inl rfl, fun _ => ⟨written, used⟩⟩
  · refine ⟨.inr refused, ?_⟩
    rw [refused]
    intro impossible
    cases impossible

end ConfigWp
