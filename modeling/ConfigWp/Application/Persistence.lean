import ConfigWp.Application.Storable

/-! Saving and rebooting. A save followed by a reboot is the identity on the
abstract state, and the preserved records survive any number of saves and
reboots, as long as they leave the known records room in a slot. -/

set_option autoImplicit false

namespace ConfigWp

/-! Runs of edits: setters, resets and saves. -/

def ConfigCall.edits : ConfigCall → Bool
  | .set _ _ _ => true
  | .resetDefaults => true
  | .save _ => true
  | _ => false

def ConfigCall.setter : ConfigCall → Bool
  | .set _ _ _ => true
  | _ => false

def Manager.Storable (m : Manager) : Prop :=
  m.initialised = true ∧ ∃ settings, m.Holds settings ∧ settings.Storable

theorem configInit_ok {lockCreated : Bool} {m : Manager} (fresh : m.initialised = false)
    {faults : SlotReadFaults} {storage : Storage}
    (loaded : (configInit lockCreated faults storage m).1 = .ok ()) : lockCreated = true := by
  cases lockCreated with
  | true => rfl
  | false => simp [configInit, fresh] at loaded

theorem configInit_storable {lockCreated : Bool} {m : Manager} (fresh : m.initialised = false)
    {faults : SlotReadFaults} {storage : Storage}
    (loaded : (configInit lockCreated faults storage m).1 = .ok ()) :
    (configInit lockCreated faults storage m).2.Storable := by
  obtain rfl := configInit_ok fresh loaded
  obtain ⟨ready, holds, -⟩ := configInit_boot fresh faults storage
  exact ⟨ready, _, holds, Settings.storable_boot _⟩

theorem configSet_storable {m : Manager} (storable : m.Storable) (domain : Domain) (idx : UInt8)
    (input : Option domain.Record) : (configSet m domain idx input).2.Storable := by
  have effect := configSet_effect m domain idx input
  generalize configSet m domain idx input = outcome at effect ⊢
  cases effect with
  | refused status => exact storable
  | stored key record ready valid =>
      obtain ⟨-, settings, ⟨cache, bytes⟩, carried⟩ := storable
      exact ⟨ready, settings.set key record, ⟨by rw [cache, Settings.set], bytes⟩,
        carried.set valid⟩

theorem configCall_storable (device : Device) (call : ConfigCall) (edits : call.edits = true)
    (storable : device.manager.Storable) : (configCall device call).manager.Storable := by
  cases call with
  | init lockCreated faults => simp [ConfigCall.edits] at edits
  | deinit => simp [ConfigCall.edits] at edits
  | set domain idx input => exact configSet_storable storable domain idx input
  | resetDefaults =>
      obtain ⟨ready, -⟩ := storable
      have reset : (configResetDefaults device.manager).2 = loadDefaultsLocked device.manager := by
        rw [configResetDefaults, if_neg (by simp [ready])]
      refine ⟨?_, .defaults, ?_, Settings.storable_defaults⟩
      · simp only [configCall, reset]
        exact ready
      · simp only [configCall, reset]
        exact loadDefaultsLocked_holds _
  | save faults =>
      obtain ⟨ready, settings, holds, carried⟩ := storable
      obtain ⟨cache, unknown, kept⟩ :=
        configSave_keeps faults device.storage device.manager
      exact ⟨kept.trans ready, settings, holds.congr cache unknown, carried⟩

theorem run_storable {device : Device} (storable : device.manager.Storable)
    {calls : List ConfigCall} (edits : ∀ call ∈ calls, call.edits = true) :
    (Machine.run configCall device calls).manager.Storable :=
  Machine.run_invariant configCall storable configCall_storable edits

theorem configSave_ok_iff_fits {m : Manager} {settings : Settings} (ready : m.initialised = true)
    (holds : m.Holds settings) (storage : Storage) :
    (configSave .none storage m).1 = .ok () ↔ settings.payload.length ≤ slotPayloadMaxBytes := by
  by_cases fits : settings.payload.length ≤ slotPayloadMaxBytes
  · have written := (slotWrite_commit storage (settings.slotPayload fits)).1
    exact iff_of_true ((configSave_fits ready holds fits .none storage).1.mpr written) fits
  · have refused := (configSave_tooLarge ready holds (Nat.not_le.mp fits) .none storage).1
    exact iff_of_false (by rw [refused]; simp) fits

def preservedRoom : Nat := 331

theorem configSave_ok_iff {m : Manager} {settings : Settings} (ready : m.initialised = true)
    (holds : m.Holds settings) (storage : Storage) :
    (configSave .none storage m).1 = .ok () ↔ m.unknown.used ≤ preservedRoom := by
  have limit : slotPayloadMaxBytes = 1697 + preservedRoom := rfl
  rw [configSave_ok_iff_fits ready holds, holds.used, settings.length_payload, limit]
  exact Nat.add_le_add_iff_left

theorem configSave_commit {m : Manager} {settings : Settings} (ready : m.initialised = true)
    (holds : m.Holds settings) {storage : Storage}
    (saved : (configSave .none storage m).1 = .ok ()) :
    slotPair (configSave .none storage m).2.1 =
      DoubleBuffer.commit (· + 1) 1 (slotPair storage) settings.payload := by
  have fits := (configSave_ok_iff_fits ready holds storage).mp saved
  have written := (configSave_fits ready holds fits .none storage).2
  rw [written]
  exact (slotWrite_commit storage (settings.slotPayload fits)).2

/-! Save then reboot. -/

/-- A successful save followed by a reboot gives back the cache and the preserved
records. -/
theorem configSave_reboot {lockCreated : Bool} {faults : SlotReadFaults} {storage : Storage}
    {m : Manager} (fresh : m.initialised = false)
    (loaded : (configInit lockCreated faults storage m).1 = .ok ()) {calls : List ConfigCall}
    (edits : ∀ call ∈ calls, call.edits = true) {device : Device}
    (reached : device =
      Machine.run configCall ⟨storage, (configInit lockCreated faults storage m).2⟩ calls)
    (unwrapped : SeqUnwrapped device.storage)
    (saved : (configSave .none device.storage device.manager).1 = .ok ()) :
    (configInit true .none (configCall device (.save .none)).storage
        (configDeinit (configCall device (.save .none)).manager)).1 = .ok () ∧
      (configInit true .none (configCall device (.save .none)).storage
        (configDeinit (configCall device (.save .none)).manager)).2.cache = device.manager.cache ∧
      ∃ records : List TlvRecord,
        device.manager.unknown.bytes = tlvFormat.encodeAll records ∧
          (configInit true .none (configCall device (.save .none)).storage
            (configDeinit (configCall device (.save .none)).manager)).2.unknown.bytes =
              tlvFormat.encodeAll records := by
  obtain ⟨ready, settings, holds, carried⟩ : device.manager.Storable := by
    rw [reached]
    exact run_storable (configInit_storable fresh loaded) edits
  have committed := configSave_commit ready holds saved
  have settled := DoubleBuffer.settled_commit (· + 1) 1 unwrapped.unwrapped settings.payload
  have found : readPayload .none (configCall device (.save .none)).storage =
      some settings.payload := by
    rw [readPayload_none, configCall, committed]
    exact settled.read
  have stopped := (configDeinit_spec (configCall device (.save .none)).manager).1
  obtain ⟨-, reloaded, status⟩ :=
    configInit_boot stopped .none (configCall device (.save .none)).storage
  rw [found] at reloaded status
  obtain ⟨same, verdict⟩ := carried.boot_payload
  rw [same] at reloaded
  exact ⟨status.trans verdict, reloaded.1.trans holds.1.symm, settings.preserved, holds.2,
    reloaded.2⟩

def editedDevice : Device :=
  Machine.run configCall ⟨storageInit, (configInit true .none storageInit .powerUp).2⟩
    [.set .system 0 (some { systemDefault with canopenNodeId := 5 })]

theorem editedDevice_booted : (configInit true .none storageInit .powerUp).1 = .ok () := by
  decide +kernel

theorem editedDevice_storable : editedDevice.manager.Storable := by
  rw [editedDevice]
  apply run_storable
  · dsimp only
    exact configInit_storable rfl editedDevice_booted
  · intro call member
    obtain rfl := List.mem_singleton.mp member
    rfl

theorem configSave_reboot_edited :
    (configInit true .none (configCall editedDevice (.save .none)).storage
        (configDeinit (configCall editedDevice (.save .none)).manager)).1 = .ok () ∧
      (configInit true .none (configCall editedDevice (.save .none)).storage
        (configDeinit (configCall editedDevice (.save .none)).manager)).2.cache =
          editedDevice.manager.cache ∧
      ∃ records : List TlvRecord,
        editedDevice.manager.unknown.bytes = tlvFormat.encodeAll records ∧
          (configInit true .none (configCall editedDevice (.save .none)).storage
            (configDeinit (configCall editedDevice (.save .none)).manager)).2.unknown.bytes =
              tlvFormat.encodeAll records :=
  @configSave_reboot true .none storageInit .powerUp rfl editedDevice_booted
    [.set .system 0 (some { systemDefault with canopenNodeId := 5 })]
    (by intro call member; obtain rfl := List.mem_singleton.mp member; rfl) editedDevice rfl
    (by intro id sane; cases id <;> exact absurd sane (by decide +kernel))
    (by
      obtain ⟨ready, settings, holds, -⟩ := editedDevice_storable
      have small : editedDevice.manager.unknown.used ≤ preservedRoom := by decide +kernel
      exact (configSave_ok_iff ready holds editedDevice.storage).mpr small)

/-! Saving after loading. -/

def storedRecords (faults : SlotReadFaults) (storage : Storage) : List TlvRecord :=
  ((readPayload faults storage).map payloadRecords).getD []

theorem storedRecords_stream {faults : SlotReadFaults} {storage : Storage}
    {records : List TlvRecord}
    (stored : readPayload faults storage = some (tlvFormat.encodeAll records)) :
    storedRecords faults storage = records := by
  rw [storedRecords, stored, Option.map_some, Option.getD_some, payloadRecords,
    Framing.Format.scan_encodeAll]

theorem configInit_ok_holds {lockCreated : Bool} {m : Manager} (fresh : m.initialised = false)
    {faults : SlotReadFaults} {storage : Storage}
    (loaded : (configInit lockCreated faults storage m).1 = .ok ()) :
    (configInit lockCreated faults storage m).2.initialised = true ∧
      (configInit lockCreated faults storage m).2.Holds (.load (storedRecords faults storage)) := by
  obtain rfl := configInit_ok fresh loaded
  obtain ⟨ready, holds, status⟩ := configInit_boot fresh faults storage
  refine ⟨ready, ?_⟩
  cases found : readPayload faults storage with
  | none =>
      rw [found] at holds
      rw [storedRecords, found, Option.map_none, Option.getD_none, Settings.load_nil]
      exact holds
  | some payload =>
      rw [found] at holds status
      rw [loaded] at status
      simp only [bootStatus] at status
      split_ifs at status with failed
      simp only [Bool.or_eq_true, not_or, Bool.not_eq_true] at failed
      rw [storedRecords, found, Option.map_some, Option.getD_some, ← accepted_eq_self failed.1]
      exact holds

theorem run_setters {device : Device} (ready : device.manager.initialised = true)
    {settings : Settings} (holds : device.manager.Holds settings) {calls : List ConfigCall}
    (setters : ∀ call ∈ calls, call.setter = true) :
    (Machine.run configCall device calls).manager.initialised = true ∧
      ∃ cache, (Machine.run configCall device calls).manager.Holds ⟨cache, settings.preserved⟩ := by
  induction calls generalizing device settings with
  | nil => exact ⟨ready, settings.cache, holds⟩
  | cons call calls ih =>
      have later := fun next member => setters next (List.mem_cons_of_mem call member)
      have first := setters call List.mem_cons_self
      cases call with
      | set domain idx input =>
          have effect := configSet_effect device.manager domain idx input
          have step : configCall device (.set domain idx input) =
              { device with manager := (configSet device.manager domain idx input).2 } := rfl
          rw [Machine.run_cons, step]
          generalize configSet device.manager domain idx input = outcome at effect ⊢
          cases effect with
          | refused status => exact ih ready holds later
          | stored key record _ valid =>
              exact @ih { device with manager := { device.manager with
                cache := device.manager.cache.set key record } } ready
                (settings.set key record) ⟨by rw [holds.1, Settings.set], holds.2⟩ later
      | _ => simp [ConfigCall.setter] at first

/-- After a successful boot and any setters, a save succeeds exactly when the
unrecognised records of the payload that fit the store leave room for the known
ones in a slot. -/
theorem configSave_ok_iff_preserved {lockCreated : Bool} {storage : Storage} {m : Manager}
    (fresh : m.initialised = false)
    (loaded : (configInit lockCreated .none storage m).1 = .ok ()) {calls : List ConfigCall}
    (setters : ∀ call ∈ calls, call.setter = true) {device : Device}
    (reached : device =
      Machine.run configCall ⟨storage, (configInit lockCreated .none storage m).2⟩ calls) :
    (configSave .none device.storage device.manager).1 = .ok () ↔
      recordsSize (packed unknownBufBytes (storedRecords .none storage)) ≤ preservedRoom := by
  obtain ⟨ready, holds⟩ := configInit_ok_holds fresh loaded
  obtain ⟨still, cache, held⟩ : device.manager.initialised = true ∧
      ∃ cache, device.manager.Holds
        ⟨cache, (Settings.load (storedRecords .none storage)).preserved⟩ := by
    rw [reached]
    exact run_setters ready holds setters
  rw [configSave_ok_iff still held, held.used, Settings.preserved_load]

/-- A slot whose payload is one record of a domain this firmware does not know,
332 bytes long with its header. -/
def oversizedStorage : Storage :=
  (slotWrite .none storageInit (tlvRecordBytes 0x0700 (List.replicate 328 0))).2

theorem configSave_tooLarge_after_load :
    (configInit true .none oversizedStorage .powerUp).1 = .ok () ∧
      (configSave .none oversizedStorage
        (configInit true .none oversizedStorage .powerUp).2).1 = .error .errTooLarge := by
  have loaded : (configInit true .none oversizedStorage .powerUp).1 = .ok () ∧
      preservedRoom < (configInit true .none oversizedStorage .powerUp).2.unknown.used := by
    decide +kernel
  obtain ⟨ready, settings, holds, -⟩ :=
    @configInit_storable true .powerUp rfl .none oversizedStorage loaded.1
  have large : slotPayloadMaxBytes < settings.payload.length := by
    have used := loaded.2
    rw [holds.used] at used
    rw [settings.length_payload]
    exact Nat.add_lt_add_left used 1697
  exact ⟨loaded.1, (configSave_tooLarge ready holds large .none oversizedStorage).1⟩

theorem configSave_ok_after_edit :
    (configSave .none editedDevice.storage editedDevice.manager).1 = .ok () :=
  have small : recordsSize (packed unknownBufBytes (storedRecords .none storageInit)) ≤
      preservedRoom := by decide +kernel
  (@configSave_ok_iff_preserved true storageInit .powerUp rfl editedDevice_booted
    [.set .system 0 (some { systemDefault with canopenNodeId := 5 })]
    (by intro call member; obtain rfl := List.mem_singleton.mp member; rfl) editedDevice rfl).mpr
    small

/-! Forwarding unrecognised records through any number of saves and reboots. -/

/-- Setters, reboots and saves on storage that does not fail. -/
def ConfigCall.Steady : ConfigCall → Prop
  | .init _ faults => faults = .none
  | .deinit => True
  | .set _ _ _ => True
  | .resetDefaults => False
  | .save faults => faults = .none

/-- Storage and manager both carry exactly these unrecognised records: the stored
payload loads to them, and a ready manager holds them. -/
structure Carries (foreign : List TlvRecord) (device : Device) : Prop where
  stored : ∃ payload, readPayload .none device.storage = some payload ∧
    (Settings.boot (some payload)).preserved = foreign
  held : device.manager.initialised = true →
    ∃ settings, device.manager.Holds settings ∧ settings.Storable ∧ settings.preserved = foreign

theorem carries_init {foreign : List TlvRecord} {device : Device} (carries : Carries foreign device)
    (lockCreated : Bool) : Carries foreign (configCall device (.init lockCreated .none)) where
  stored := carries.stored
  held := by
    intro ready
    obtain ⟨payload, found, preserved⟩ := carries.stored
    by_cases skipped : device.manager.initialised = true ∨ lockCreated = false
    · rw [configCall, configInit_skipped .none device.storage skipped] at ready ⊢
      exact carries.held ready
    · simp only [not_or, Bool.not_eq_true, Bool.not_eq_false] at skipped
      obtain ⟨fresh, rfl⟩ := skipped
      obtain ⟨-, holds, -⟩ := configInit_boot fresh .none device.storage
      rw [found] at holds
      exact ⟨_, holds, Settings.storable_boot _, preserved⟩

theorem carries_save {foreign : List TlvRecord} {device : Device}
    (carries : Carries foreign device) : Carries foreign (configCall device (.save .none)) := by
  obtain ⟨cache, unknown, kept⟩ := configSave_keeps .none device.storage device.manager
  constructor
  · by_cases saved : (configSave .none device.storage device.manager).1 = .ok ()
    · have ready : device.manager.initialised = true := by
        by_contra fresh
        rw [configSave_uninitialised _ _ (Bool.not_eq_true _ ▸ fresh)] at saved
        cases saved
      obtain ⟨settings, holds, storable, preserved⟩ := carries.held ready
      have committed := configSave_commit ready holds saved
      -- Whatever the sequence numbers, the reader sees the new payload or the old one.
      have read := DoubleBuffer.read_commit_or (· + 1) 1 (slotPair device.storage) settings.payload
      rw [← committed, ← readPayload_none, ← readPayload_none] at read
      rcases read with fresh | old
      · exact ⟨settings.payload, fresh, by rw [storable.boot_payload.1, preserved]⟩
      · obtain ⟨payload, found, same⟩ := carries.stored
        exact ⟨payload, old.trans found, same⟩
    · obtain ⟨payload, found, same⟩ := carries.stored
      refine ⟨payload, ?_, same⟩
      rw [← found]
      by_cases ready : device.manager.initialised = true
      · obtain ⟨settings, holds, -⟩ := carries.held ready
        have large := (configSave_ok_iff_fits ready holds device.storage).not.mp saved
        rw [configCall, (configSave_tooLarge ready holds (Nat.not_le.mp large) .none
          device.storage).2]
      · rw [configCall, configSave_uninitialised _ _ (Bool.not_eq_true _ ▸ ready)]
  · intro ready
    obtain ⟨settings, holds, storable, preserved⟩ := carries.held (kept ▸ ready)
    exact ⟨settings, holds.congr cache unknown, storable, preserved⟩

theorem carries_step {foreign : List TlvRecord} (device : Device) (call : ConfigCall)
    (steady : call.Steady) (carries : Carries foreign device) :
    Carries foreign (configCall device call) := by
  cases call with
  | init lockCreated faults =>
      obtain rfl : faults = .none := steady
      exact carries_init carries lockCreated
  | deinit =>
      refine ⟨carries.stored, ?_⟩
      intro ready
      have stopped := (configDeinit_spec device.manager).1
      rw [configCall, stopped] at ready
      cases ready
  | set domain idx input =>
      refine ⟨carries.stored, ?_⟩
      intro ready
      have effect := configSet_effect device.manager domain idx input
      rw [configCall] at ready ⊢
      generalize configSet device.manager domain idx input = outcome at effect ready ⊢
      cases effect with
      | refused status => exact carries.held ready
      | stored key record _ valid =>
          obtain ⟨settings, ⟨cache, bytes⟩, storable, preserved⟩ := carries.held ready
          exact ⟨settings.set key record, ⟨by rw [cache, Settings.set], bytes⟩, storable.set valid,
            preserved⟩
  | resetDefaults => exact absurd steady id
  | save faults =>
      obtain rfl : faults = .none := steady
      exact carries_save carries

theorem run_carries {foreign : List TlvRecord} {device : Device} (carries : Carries foreign device)
    {calls : List ConfigCall} (steady : ∀ call ∈ calls, call.Steady) :
    Carries foreign (Machine.run configCall device calls) :=
  Machine.run_invariant configCall carries carries_step steady

theorem carries_load {lockCreated : Bool} {storage : Storage} {m : Manager}
    {records : List TlvRecord} (fresh : m.initialised = false)
    (stored : readPayload .none storage = some (tlvFormat.encodeAll records))
    (loaded : (configInit lockCreated .none storage m).1 = .ok ())
    (room : recordsSize (unrecognised records) ≤ unknownBufBytes) :
    Carries (unrecognised records) ⟨storage, (configInit lockCreated .none storage m).2⟩ := by
  have holds := (configInit_ok_holds fresh loaded).2
  rw [storedRecords_stream stored] at holds
  have kept : (Settings.load records).preserved = unrecognised records := by
    rw [Settings.preserved_load]
    exact Packing.keep_eq_self _ room
  refine ⟨⟨_, stored, ?_⟩, fun _ => ⟨_, holds, Settings.storable_load _, kept⟩⟩
  obtain rfl := configInit_ok fresh loaded
  have booted := (configInit_boot fresh .none storage).2.1
  rw [stored] at booted
  rw [booted.unique holds, kept]

theorem Carries.save_ok_iff {foreign : List TlvRecord} {device : Device}
    (carries : Carries foreign device) (ready : device.manager.initialised = true) :
    (configSave .none device.storage device.manager).1 = .ok () ↔
      recordsSize foreign ≤ preservedRoom := by
  obtain ⟨settings, holds, -, preserved⟩ := carries.held ready
  rw [configSave_ok_iff ready holds, holds.used, preserved]

/-- Every successful save writes the 57 known records followed by exactly the
unrecognised records of the payload loaded first. -/
theorem configSave_forwards {lockCreated : Bool} {storage : Storage} {m : Manager}
    {records : List TlvRecord} (fresh : m.initialised = false)
    (stored : readPayload .none storage = some (tlvFormat.encodeAll records))
    (loaded : (configInit lockCreated .none storage m).1 = .ok ())
    (room : recordsSize (unrecognised records) ≤ unknownBufBytes) {calls : List ConfigCall}
    (steady : ∀ call ∈ calls, call.Steady) {device : Device}
    (reached : device =
      Machine.run configCall ⟨storage, (configInit lockCreated .none storage m).2⟩ calls)
    (saved : (configSave .none device.storage device.manager).1 = .ok ()) :
    (knownRecords device.manager.cache).length = 57 ∧
      (slotPair (configSave .none device.storage device.manager).2.1
        (slotWriteTarget (fun _ => false) device.storage).1).content? =
          some (tlvFormat.encodeAll
            (knownRecords device.manager.cache ++ unrecognised records)) := by
  have carries := run_carries (carries_load fresh stored loaded room) steady
  rw [← reached] at carries
  have running : device.manager.initialised = true := by
    by_contra stopped
    rw [configSave_uninitialised _ _ (Bool.not_eq_true _ ▸ stopped)] at saved
    cases saved
  obtain ⟨settings, held, -, preserved⟩ := carries.held running
  refine ⟨by rw [knownRecords, List.length_map]; rfl, ?_⟩
  rw [configSave_commit running held saved, slotWriteTarget_eq_pair, DoubleBuffer.commit_target,
    DoubleBuffer.Copy.content?_valid, Settings.payload, Settings.records, preserved, held.1]

def nodeRecord : TlvRecord :=
  ⟨0xF000, putSystem { systemDefault with canopenNodeId := 6 }, by decide⟩

/-- A system record between records of a domain that this firmware does not know. -/
def newerRecords : List TlvRecord :=
  [⟨0x0700, [1, 2, 3], by decide⟩, nodeRecord, ⟨0x0701, [4], by decide⟩]

def newerStorage : Storage := (slotWrite .none storageInit (tlvFormat.encodeAll newerRecords)).2

theorem newerStorage_stored :
    readPayload .none newerStorage = some (tlvFormat.encodeAll newerRecords) := by
  decide +kernel

theorem newerStorage_loaded : (configInit true .none newerStorage .powerUp).1 = .ok () := by
  decide +kernel

/-- The cycle of a reboot. -/
def rebootCalls : List ConfigCall := [.deinit, .init true .none]

theorem run_rebootCalls_ready (device : Device) :
    (Machine.run configCall device rebootCalls).manager.initialised = true := by
  have stopped := (configDeinit_spec device.manager).1
  exact (configInit_boot stopped .none device.storage).1

/-- A setter, a save, and a reboot. -/
def newerCalls : List ConfigCall :=
  [.set .system 0 (some { systemDefault with canopenNodeId := 7 }), .save .none] ++ rebootCalls

def newerDevice : Device :=
  Machine.run configCall ⟨newerStorage, (configInit true .none newerStorage .powerUp).2⟩ newerCalls

theorem newerCalls_steady : ∀ call ∈ newerCalls, call.Steady := by
  simp [newerCalls, rebootCalls, ConfigCall.Steady]

theorem newerDevice_ready : newerDevice.manager.initialised = true := by
  rw [newerDevice, newerCalls, Machine.run_append]
  exact run_rebootCalls_ready _

theorem newerDevice_carries : Carries (unrecognised newerRecords) newerDevice := by
  rw [newerDevice]
  exact run_carries (carries_load rfl newerStorage_stored newerStorage_loaded (by decide))
    newerCalls_steady

theorem configSave_forwards_newer :
    (knownRecords newerDevice.manager.cache).length = 57 ∧
      (slotPair (configSave .none newerDevice.storage newerDevice.manager).2.1
        (slotWriteTarget (fun _ => false) newerDevice.storage).1).content? =
          some (tlvFormat.encodeAll
            (knownRecords newerDevice.manager.cache ++ unrecognised newerRecords)) :=
  have saved : (configSave .none newerDevice.storage newerDevice.manager).1 = .ok () :=
    (newerDevice_carries.save_ok_iff newerDevice_ready).mpr (by decide)
  @configSave_forwards true newerStorage .powerUp newerRecords rfl newerStorage_stored
    newerStorage_loaded (by decide) newerCalls newerCalls_steady newerDevice (by rw [newerDevice])
    saved

end ConfigWp
