import ConfigWp.Application.SetterRuns
import ConfigWp.Application.Storable

/-! No client path bypasses validation. The invariant pairs the cache of a ready
manager with the storage: every slot a boot could load holds the payload of a
valid cache and no unrecognised record, so a boot loads a valid cache back. -/

set_option autoImplicit false

namespace ConfigWp

def ConfigCache.Valid (cache : ConfigCache) : Prop :=
  ∀ key, validate key.domain (cache.get key) = true

theorem ConfigCache.valid_defaults : ConfigCache.defaults.Valid := by
  intro key
  rw [ConfigCache.get_defaults]
  exact validate_default key.domain

theorem ConfigCache.Valid.set {cache : ConfigCache} (valid : cache.Valid) {key : RecordKey}
    {record : key.domain.Record} (accepted : validate key.domain record = true) :
    (cache.set key record).Valid := by
  intro other
  by_cases same : other = key
  · subst same
    rw [ConfigCache.get_set_same]
    exact accepted
  · rw [ConfigCache.get_set_other _ _ same]
    exact valid other

def ConfigCache.settings (cache : ConfigCache) : Settings := ⟨cache, []⟩

theorem ConfigCache.Valid.storable {cache : ConfigCache} (valid : cache.Valid) :
    cache.settings.Storable where
  wireable key := wireable_of_validate (valid key)
  foreign _ member := absurd member List.not_mem_nil
  room := Nat.zero_le _

theorem ConfigCache.payload_fits (cache : ConfigCache) :
    cache.settings.payload.length ≤ slotPayloadMaxBytes := by
  rw [Settings.length_payload, settings]
  exact Nat.le_of_ble_eq_true rfl

/-- Setters leave everything but the cache alone. -/
theorem SetterRun.frame {m next : Manager} (run : SetterRun m next) :
    next.unknown = m.unknown ∧ next.initialised = m.initialised := by
  induction run with
  | refl => exact ⟨rfl, rfl⟩
  | tail _ step ih =>
      obtain ⟨key, record, -, -, rfl⟩ := step
      exact ih

/-- When ready, every record passes its validator, whatever is preserved beside it. -/
def Manager.Checked (m : Manager) : Prop := m.initialised = true → m.cache.Valid

theorem SetterRun.checked {m next : Manager} (run : SetterRun m next) (checked : m.Checked) :
    next.Checked := by
  induction run with
  | refl => exact checked
  | tail _ step ih =>
      obtain ⟨key, record, ready, accepted, rfl⟩ := step
      exact fun _ => (ih ready).set accepted

/-- When ready, the manager has a valid cache and an empty store. -/
def Manager.Sound (m : Manager) : Prop :=
  m.initialised = true → m.cache.Valid ∧ m.Holds m.cache.settings

theorem SetterRun.sound {m next : Manager} (run : SetterRun m next) (sound : m.Sound) :
    next.Sound := by
  obtain ⟨kept, still⟩ := run.frame
  intro ready
  obtain ⟨-, -, empty⟩ := sound (still ▸ ready)
  exact ⟨run.checked (fun up => (sound up).1) ready, rfl, kept ▸ empty⟩

/-- Every slot a boot could load holds the payload of a valid cache, and the manager
is sound. -/
structure Guarded (device : Device) : Prop where
  stored : ∀ id seq payload, slotPair device.storage id = .valid seq payload →
    ∃ cache : ConfigCache, cache.Valid ∧ payload = cache.settings.payload
  held : device.manager.Sound

theorem readPayload_mem {faults : SlotReadFaults} {storage : Storage} {payload : List UInt8}
    (found : readPayload faults storage = some payload) :
    ∃ id seq, slotPair storage id = .valid seq payload := by
  rw [readPayload] at found
  split_ifs at found
  obtain ⟨id, seq, -, copy⟩ := DoubleBuffer.newest_of_read found
  obtain ⟨⟨-, sane⟩, ⟨-, intact⟩, stamp, content⟩ := slotCopies_eq_valid_iff.mp copy
  exact ⟨id, seq, slotCopies_eq_valid_iff.mpr ⟨⟨rfl, sane⟩, ⟨rfl, intact⟩, stamp, content⟩⟩

theorem guarded_init {device : Device} (guarded : Guarded device) (lockCreated : Bool)
    (faults : SlotReadFaults) : Guarded (configCall device (.init lockCreated faults)) := by
  refine ⟨guarded.stored, ?_⟩
  by_cases skipped : device.manager.initialised = true ∨ lockCreated = false
  · rw [configCall, configInit_skipped faults device.storage skipped]
    exact guarded.held
  · simp only [not_or, Bool.not_eq_true, Bool.not_eq_false] at skipped
    obtain ⟨fresh, rfl⟩ := skipped
    obtain ⟨-, holds, -⟩ := configInit_boot fresh faults device.storage
    intro _
    cases found : readPayload faults device.storage with
    | none =>
        rw [found] at holds
        obtain ⟨cache, bytes⟩ := holds
        rw [configCall, cache]
        exact ⟨ConfigCache.valid_defaults, cache, bytes⟩
    | some payload =>
        obtain ⟨id, seq, copy⟩ := readPayload_mem found
        obtain ⟨cache, valid, rfl⟩ := guarded.stored id seq payload copy
        rw [found, valid.storable.boot_payload.1] at holds
        obtain ⟨same, bytes⟩ := holds
        rw [configCall, same]
        exact ⟨valid, same, bytes⟩

theorem guarded_save {device : Device} (guarded : Guarded device) {faults : SlotWriteFaults}
    (sent : faults.payloadWrite = .complete) (committed : faults.headerWrite = .complete) :
    Guarded (configCall device (.save faults)) := by
  obtain ⟨cache, unknown, kept⟩ := configSave_keeps faults device.storage device.manager
  constructor
  · by_cases ready : device.manager.initialised = true
    · obtain ⟨valid, holds⟩ := guarded.held ready
      have fits := device.manager.cache.payload_fits
      have written := (configSave_fits ready holds fits faults device.storage).2
      have replaced := (@slotWrite_complete faults device.storage
        (device.manager.cache.settings.slotPayload fits) sent committed).2
      intro id seq payload copy
      rw [configCall, written] at copy
      rw [Settings.slotPayload] at replaced
      rw [replaced] at copy
      by_cases target : id = (slotWriteTarget faults.header device.storage).1
      · subst target
        rw [Function.update_self, DoubleBuffer.Copy.valid.injEq] at copy
        exact ⟨_, valid, copy.2.symm⟩
      · rw [Function.update_of_ne target] at copy
        exact guarded.stored id seq payload copy
    · rw [configCall, configSave_uninitialised _ _ (Bool.not_eq_true _ ▸ ready)]
      exact guarded.stored
  · intro ready
    obtain ⟨valid, holds⟩ := guarded.held (kept ▸ ready)
    rw [configCall, cache]
    exact ⟨valid, holds.congr cache unknown⟩

/-- Everything a client can do: the calls of the manager, a JSON import, and a queued
request. -/
inductive ClientCall where
  | config (call : ConfigCall)
  | importJson (undefined : Rat → Int32) (parse : List UInt8 → Option Json)
      (json : Option (List UInt8))
  | request (request : EepromRequest)

def clientCall (device : Device) : ClientCall → Device
  | .config call => configCall device call
  | .importJson undefined parse json =>
      { device with manager := (configImportJson undefined parse json device.manager).2.manager }
  | .request request =>
      { device with manager := (processRequest device.manager request).2 }

/-- Every storage write completes, as the writes of the in-memory driver do; reads
may fail. -/
def ClientCall.Completes : ClientCall → Prop
  | .config (.save faults) => faults.payloadWrite = .complete ∧ faults.headerWrite = .complete
  | _ => True

theorem guarded_step (device : Device) (call : ClientCall) (completes : call.Completes)
    (guarded : Guarded device) : Guarded (clientCall device call) := by
  cases call with
  | config call =>
      cases call with
      | init lockCreated faults => exact guarded_init guarded lockCreated faults
      | deinit =>
          refine ⟨guarded.stored, ?_⟩
          intro ready
          have stopped := (configDeinit_spec device.manager).1
          rw [clientCall, configCall, stopped] at ready
          cases ready
      | set domain idx input =>
          exact ⟨guarded.stored, (configSet_run device.manager domain idx input).sound guarded.held⟩
      | resetDefaults =>
          refine ⟨guarded.stored, ?_⟩
          rw [clientCall, configCall, configResetDefaults]
          split_ifs
          · exact guarded.held
          · exact fun _ => ⟨ConfigCache.valid_defaults, loadDefaultsLocked_holds device.manager⟩
      | save faults => exact guarded_save guarded completes.1 completes.2
  | importJson undefined parse json =>
      exact ⟨guarded.stored,
        (configImportJson_run undefined parse json device.manager).sound guarded.held⟩
  | request request =>
      exact ⟨guarded.stored, (processRequest_run device.manager request).sound guarded.held⟩

theorem guarded_erased {m : Manager} (fresh : m.initialised = false) :
    Guarded ⟨storageInit, m⟩ := by
  constructor
  · intro id seq payload copy
    have blank := slotPair_erased id
    rw [copy] at blank
    cases blank
  · intro ready
    rw [fresh] at ready
    cases ready

/-- In every state a run of client calls reaches from erased storage, every record of
a ready manager passes its validator. -/
theorem cache_valid_after_run {m : Manager} (fresh : m.initialised = false)
    {calls : List ClientCall} (completes : ∀ call ∈ calls, call.Completes) {device : Device}
    (reached : device = Machine.run clientCall ⟨storageInit, m⟩ calls)
    (ready : device.manager.initialised = true) (key : RecordKey) :
    validate key.domain (device.manager.cache.get key) = true ∧
      InRange key.domain (device.manager.cache.get key) := by
  have guarded : Guarded device := by
    rw [reached]
    exact Machine.run_invariant clientCall (guarded_erased fresh) guarded_step completes
  have valid := (guarded.held ready).1 key
  exact ⟨valid, (validate_iff _ _).mp valid⟩

/-- A manager that is ready over the factory defaults. -/
def Manager.atDefaults : Manager := { Manager.powerUp with cache := .defaults, initialised := true }

/-- A document that sets the node id, its text, and a parser that knows one text. -/
def nodeIdDocument (node : Rat) : Json :=
  .object [(ascii "system", .object [(ascii "canopen_node_id", .number node)])]

def nodeIdText (digits : String) : List UInt8 :=
  ascii "\x7b\"system\":\x7b\"canopen_node_id\":" ++ ascii digits ++ ascii "\x7d\x7d"

def parseOnly (known : List UInt8) (document : Json) (text : List UInt8) : Option Json :=
  if text = known then some document else none

def requestedDevice : Device :=
  Machine.run clientCall ⟨storageInit, .powerUp⟩
    [.config (.init true .none), .request (.field 7 0 0 ⟨.ofBytes [5]⟩)]

theorem cache_valid_after_request :
    requestedDevice.manager.cache.system.canopenNodeId = 5 ∧
      validate .system requestedDevice.manager.cache.system = true ∧
        InRange .system requestedDevice.manager.cache.system := by
  have reached : requestedDevice.manager.initialised = true ∧
      requestedDevice.manager.cache.system.canopenNodeId = 5 := by decide +kernel
  refine ⟨reached.2, ?_⟩
  exact @cache_valid_after_run .powerUp rfl
    [.config (.init true .none), .request (.field 7 0 0 ⟨.ofBytes [5]⟩)]
    (by simp [ClientCall.Completes]) requestedDevice rfl reached.1 ⟨.system, ⟨0, Nat.one_pos⟩⟩

end ConfigWp
