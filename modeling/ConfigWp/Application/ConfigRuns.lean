import ConfigWp.Application.ConfigSave
import ConfigWp.Library.Machine

/-! The lifecycle calls against the abstract state: a boot loads what the reader
finds, a save writes the payload of the state, a setter replaces one entry by a
valid record. A device is the storage and the manager; clients drive it by
calls. -/

set_option autoImplicit false

namespace ConfigWp

/-! Booting. -/

/-- The records of a payload that are complete, and whether all of it was. -/
def payloadRecords (payload : List UInt8) : List TlvRecord := (tlvFormat.scan payload).1

def payloadClean (payload : List UInt8) : Bool := (tlvFormat.scan payload).2.isNone

def bootStatus (payload : List UInt8) : Except ConfigStatus Unit :=
  if (payloadRecords payload).any TlvRecord.short || !payloadClean payload then .error .errCodec
  else .ok ()

def Settings.boot : Option (List UInt8) → Settings
  | none => .defaults
  | some payload => .load (accepted (payloadRecords payload))

theorem configInit_skipped {lockCreated : Bool} {m : Manager} (faults : SlotReadFaults)
    (storage : Storage) (skipped : m.initialised = true ∨ lockCreated = false) :
    (configInit lockCreated faults storage m).2 = m := by
  rw [configInit]
  rcases skipped with ready | failed
  · rw [if_pos ready]
  · by_cases ready : m.initialised = true
    · rw [if_pos ready]
    · rw [if_neg ready, if_pos (by simp [failed])]

theorem configInit_boot {m : Manager} (fresh : m.initialised = false) (faults : SlotReadFaults)
    (storage : Storage) :
    (configInit true faults storage m).2.initialised = true ∧
      (configInit true faults storage m).2.Holds (.boot (readPayload faults storage)) ∧
        match readPayload faults storage with
        | some payload => (configInit true faults storage m).1 = bootStatus payload
        | none => (configInit true faults storage m).1 ≠ .error .errCodec := by
  have room : slotPayloadMaxBytes ≤ (loadDefaultsLocked m).blobBuf.bytes.length :=
    (loadDefaultsLocked m).blobBuf.size_eq.ge
  have size : (slotPickActive faults storage (loadDefaultsLocked m).blobBuf.bytes).2.length =
      slotPayloadMaxBytes := by
    rw [slotPickActive_length]
    exact (loadDefaultsLocked m).blobBuf.size_eq
  have start := loadDefaultsLocked_holds m
  rw [configInit, if_neg (by simp [fresh]), if_neg (by decide)]
  refine ⟨rfl, ?_⟩
  cases found : readPayload faults storage with
  | some payload =>
      obtain ⟨id, picked, front⟩ := slotPickActive_some room found
      simp only [picked, front]
      obtain ⟨verdict, cache, bytes⟩ := @decodeBlobLocked_holds payload
        { loadDefaultsLocked m with blobBuf :=
            ⟨(slotPickActive faults storage (loadDefaultsLocked m).blobBuf.bytes).2, size⟩ }
        .defaults start
      refine ⟨⟨cache, bytes⟩, verdict.trans ?_⟩
      rw [bootStatus, payloadRecords, payloadClean]
      cases (tlvFormat.scan payload).2 <;> rfl
  | none =>
      obtain ⟨status, picked⟩ := slotPickActive_error room found
      simp only [picked]
      cases status <;> exact ⟨start, by simp⟩

theorem configDeinit_spec (m : Manager) :
    (configDeinit m).initialised = false ∧ (configDeinit m).cache = m.cache := by
  rw [configDeinit]
  cases ready : m.initialised <;> simp [ready]

/-! Saving. -/

theorem Settings.payload_pos (settings : Settings) : 0 < settings.payload.length := by
  rw [settings.length_payload]
  omega

def Settings.slotPayload (settings : Settings)
    (fits : settings.payload.length ≤ slotPayloadMaxBytes) : SlotPayload :=
  ⟨settings.payload, settings.payload_pos, fits⟩

theorem configSave_uninitialised {m : Manager} (faults : SlotWriteFaults) (storage : Storage)
    (fresh : m.initialised = false) :
    configSave faults storage m = (.error .errNotInitialised, storage, m) := by
  rw [configSave, if_pos (by simp [fresh])]

theorem configSave_fits {m : Manager} {settings : Settings} (ready : m.initialised = true)
    (holds : m.Holds settings) (fits : settings.payload.length ≤ slotPayloadMaxBytes)
    (faults : SlotWriteFaults) (storage : Storage) :
    ((configSave faults storage m).1 = .ok () ↔
        (slotWrite faults storage settings.payload).1 = .ok ()) ∧
      (configSave faults storage m).2.1 = (slotWrite faults storage settings.payload).2 := by
  have encoded := encodeCacheLocked_spec holds m.blobBuf.size_eq
  rw [if_pos fits] at encoded
  obtain ⟨len, bytes⟩ := encoded
  rw [configSave, if_neg (by simp [ready])]
  simp only [len, bytes]
  rcases slotWrite faults storage settings.payload with ⟨status | done, written⟩ <;> simp

theorem configSave_tooLarge {m : Manager} {settings : Settings} (ready : m.initialised = true)
    (holds : m.Holds settings) (large : slotPayloadMaxBytes < settings.payload.length)
    (faults : SlotWriteFaults) (storage : Storage) :
    (configSave faults storage m).1 = .error .errTooLarge ∧
      (configSave faults storage m).2.1 = storage := by
  have encoded := encodeCacheLocked_spec holds m.blobBuf.size_eq
  rw [if_neg (Nat.not_le.mpr large)] at encoded
  rw [configSave, if_neg (by simp [ready])]
  simp only [encoded, true_and]

theorem configSave_keeps (faults : SlotWriteFaults) (storage : Storage) (m : Manager) :
    (configSave faults storage m).2.2.cache = m.cache ∧
      (configSave faults storage m).2.2.unknown = m.unknown ∧
      (configSave faults storage m).2.2.initialised = m.initialised := by
  rw [configSave]
  by_cases fresh : (!m.initialised) = true
  · rw [if_pos fresh]
    exact ⟨rfl, rfl, rfl⟩
  · rw [if_neg fresh]
    dsimp only
    rcases (encodeCacheLocked m.cache m.unknown m.blobBuf.bytes).1 with status | len
    · exact ⟨rfl, rfl, rfl⟩
    · dsimp only
      rcases slotWrite faults storage _ with ⟨status | done, written⟩ <;> exact ⟨rfl, rfl, rfl⟩

/-! Setting. -/

/-- The setter of a type; the index is not looked at for the system record. -/
def configSet (m : Manager) : (domain : Domain) → UInt8 → Option domain.Record →
    Except ConfigStatus Unit × Manager
  | .di, idx, input => configSetDi m idx input
  | .do_, idx, input => configSetDo m idx input
  | .tc, idx, input => configSetTc m idx input
  | .ai, idx, input => configSetAi m idx input
  | .ao, idx, input => configSetAo m idx input
  | .pcnt, idx, input => configSetPcnt m idx input
  | .pwm, idx, input => configSetPwm m idx input
  | .system, _, input => configSetSystem m input

/-- What a setter did: nothing, or it replaced one entry by a record that passed
the validator of its type. -/
inductive SetEffect (m : Manager) : Except ConfigStatus Unit × Manager → Prop where
  | refused (status : ConfigStatus) : SetEffect m (.error status, m)
  | stored (key : RecordKey) (record : key.domain.Record) (ready : m.initialised = true)
      (valid : validate key.domain record = true) :
      SetEffect m (.ok (), { m with cache := m.cache.set key record })

theorem configSetRecord_effect (domain : Domain) (m : Manager) (idx : UInt8)
    (input : Option domain.Record) : SetEffect m (configSetRecord domain m idx input) := by
  unfold configSetRecord
  by_cases fresh : (!m.initialised) = true
  · rw [if_pos fresh]
    exact .refused _
  · rw [if_neg fresh]
    cases input with
    | none => exact .refused _
    | some record =>
        by_cases inside : idx.toNat < domain.count
        · by_cases invalid : (!validate domain record) = true
          · simp only [dif_pos inside, if_pos invalid]
            exact .refused _
          · simp only [dif_pos inside, if_neg invalid]
            exact .stored ⟨domain, ⟨_, inside⟩⟩ record (by simpa using fresh)
              (by simpa using invalid)
        · simp only [dif_neg inside]
          exact .refused _

/-- The system setter is the indexed setter at index 0. -/
theorem configSetSystem_eq (m : Manager) (input : Option SystemConfig) :
    configSetSystem m input = configSetRecord .system m 0 input := by
  unfold configSetSystem configSetRecord
  by_cases fresh : (!m.initialised) = true
  · rw [if_pos fresh, if_pos fresh]
  · rw [if_neg fresh, if_neg fresh]
    cases input with
    | none => rfl
    | some record => rfl

theorem configSet_effect (m : Manager) (domain : Domain) (idx : UInt8)
    (input : Option domain.Record) : SetEffect m (configSet m domain idx input) := by
  cases domain with
  | system =>
      have effect := configSetRecord_effect .system m 0 input
      rw [← configSetSystem_eq] at effect
      exact effect
  | _ => exact configSetRecord_effect _ m idx input

/-! The accessors of a ready manager. -/

theorem configGetRecord_ready {domain : Domain} {m : Manager} {idx : UInt8}
    (ready : m.initialised = true) (inside : idx.toNat < domain.count) :
    configGetRecord domain m idx = .ok (m.cache.get ⟨domain, ⟨idx.toNat, inside⟩⟩) := by
  rw [configGetRecord, if_neg (by simp [ready]), dif_pos inside]

theorem configGetRecord_outside {domain : Domain} {m : Manager} {idx : UInt8}
    (ready : m.initialised = true) (outside : ¬idx.toNat < domain.count) :
    configGetRecord domain m idx = .error .errIndex := by
  rw [configGetRecord, if_neg (by simp [ready]), dif_neg outside]

theorem configSetRecord_ready {domain : Domain} {m : Manager} {idx : UInt8}
    (ready : m.initialised = true) (inside : idx.toNat < domain.count) (record : domain.Record) :
    configSetRecord domain m idx (some record) =
      if validate domain record then
        (.ok (), { m with cache := m.cache.set ⟨domain, ⟨idx.toNat, inside⟩⟩ record })
      else (.error .errInvalid, m) := by
  simp only [configSetRecord, ready, Bool.not_true, Bool.false_eq_true, if_false, dif_pos inside]
  cases validate domain record <;> rfl

theorem channel_toNat {domain : Domain} (channel : Fin domain.count) :
    (UInt8.ofNat channel).toNat = channel := by
  have bound := channel.isLt
  have small := domain.count_le
  rw [UInt8.toNat_ofNat']
  omega

theorem configGetRecord_channel {domain : Domain} {m : Manager} (ready : m.initialised = true)
    (channel : Fin domain.count) :
    configGetRecord domain m (UInt8.ofNat channel) = .ok (m.cache.get ⟨domain, channel⟩) := by
  have kept := channel_toNat channel
  have inside : (UInt8.ofNat channel).toNat < domain.count := kept.trans_lt channel.isLt
  have place : (⟨_, inside⟩ : Fin domain.count) = channel := Fin.ext kept
  rw [configGetRecord_ready ready inside, place]

theorem configSetRecord_channel {domain : Domain} {m : Manager} (ready : m.initialised = true)
    (channel : Fin domain.count) (record : domain.Record) :
    configSetRecord domain m (UInt8.ofNat channel) (some record) =
      if validate domain record then
        (.ok (), { m with cache := m.cache.set ⟨domain, channel⟩ record })
      else (.error .errInvalid, m) := by
  have kept := channel_toNat channel
  have inside : (UInt8.ofNat channel).toNat < domain.count := kept.trans_lt channel.isLt
  have place : (⟨_, inside⟩ : Fin domain.count) = channel := Fin.ext kept
  rw [configSetRecord_ready ready inside, place]

theorem configGetSystem_eq (m : Manager) : configGetSystem m = configGetRecord .system m 0 := by
  unfold configGetSystem configGetRecord
  cases m.initialised <;> rfl

/-! Devices and calls. -/

def Manager.powerUp : Manager where
  cache :=
    { di := Vector.replicate configNumDi (getDi [])
      do_ := Vector.replicate configNumDo (getDo [])
      tc := Vector.replicate configNumTc (getTc [])
      ai := Vector.replicate configNumAi (getAi [])
      ao := Vector.replicate configNumAo (getAo [])
      pcnt := Vector.replicate configNumPcnt (getPcnt [])
      pwm := Vector.replicate configNumPwm (getPwm [])
      system := getSystem [] }
  unknown := ⟨List.replicate unknownBufBytes 0, 0, List.length_replicate, Nat.zero_le _⟩
  blobBuf := ⟨List.replicate slotPayloadMaxBytes 0, List.length_replicate⟩
  initialised := false

structure Device where
  storage : Storage
  manager : Manager

inductive ConfigCall where
  | init (lockCreated : Bool) (faults : SlotReadFaults)
  | deinit
  | set (domain : Domain) (idx : UInt8) (input : Option domain.Record)
  | resetDefaults
  | save (faults : SlotWriteFaults)

def configCall (device : Device) : ConfigCall → Device
  | .init lockCreated faults =>
      { device with manager := (configInit lockCreated faults device.storage device.manager).2 }
  | .deinit => { device with manager := configDeinit device.manager }
  | .set domain idx input =>
      { device with manager := (configSet device.manager domain idx input).2 }
  | .resetDefaults => { device with manager := (configResetDefaults device.manager).2 }
  | .save faults =>
      { storage := (configSave faults device.storage device.manager).2.1
        manager := (configSave faults device.storage device.manager).2.2 }

end ConfigWp
