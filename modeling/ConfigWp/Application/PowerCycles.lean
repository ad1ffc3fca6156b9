import ConfigWp.Application.CommitDurability

/-! Power cycles. The supply fails between any two steps, or inside the slot write
that `eeprom_task` has begun; the memory, the queue and the tasks are lost, the bytes
of the storage are not, and `eeprom_manager_init` starts again over them. A payload may be
cut at any byte; the 20 bytes of a header are written at once or not at all. -/

set_option autoImplicit false

namespace ConfigWp

open WriteBehind

/-! What the supply leaves and what is made of it. -/

/-- The storage when the supply fails, and the slot writes begun by then. -/
def EepromSystem.powerLoss (ending : SlotWriteEnd) (system : EepromSystem) : Storage × Nat :=
  match system.point with
  | .write blobLen =>
      ((configSaveWrite ending.faults system.storage system.manager blobLen).2, system.saves + 1)
  | _ => (system.storage, system.saves)

/-- `eeprom_manager_init` over a medium that keeps its bytes, as flash or EEPROM behind the
driver does. The erase that the in-memory `storage_init` makes at every boot is left out. -/
def EepromSystem.reboot (m : Manager) (storage : Storage) (saves : Nat) : EepromSystem where
  storage
  manager := (configInit true .none storage m).2
  queue := []
  point := .receive
  log := []
  saves

def EepromSystem.powerCycle (ending : SlotWriteEnd) (system : EepromSystem) : EepromSystem :=
  .reboot .powerUp (system.powerLoss ending).1 (system.powerLoss ending).2

/-- The steps taken while the supply lasts, and how a slot write ends when it fails. -/
structure PowerEpoch where
  actions : List SystemAction
  ending : SlotWriteEnd

def powerEpoch (system : EepromSystem) (epoch : PowerEpoch) : EepromSystem :=
  (Machine.run systemStep system epoch.actions).powerCycle epoch.ending

/-! The slots between two epochs. -/

/-- What the next boot loads is the cache. -/
def Stored (cache : ConfigCache) (saves : Nat) (storage : Storage) : Prop :=
  ∃ committed, SlotRunInvariant saves storage committed ∧
    match committed with
    | none => cache = .defaults
    | some payload => payload.bytes = cache.settings.payload

/-- The payload that an intact pair of slots has a reader find. -/
theorem readPayload_of_invariant {made : Nat} {storage : Storage}
    {committed : Option SlotPayload} (invariant : SlotRunInvariant made storage committed) :
    readPayload .none storage = committed.map SlotPayload.bytes := by
  obtain ⟨-, agreed⟩ := invariant
  rw [readPayload_none]
  cases committed with
  | some payload => exact agreed.read
  | none =>
      have blank : DoubleBuffer.newest (slotPair storage) = none :=
        DoubleBuffer.newest_eq_none_iff.mpr fun id => by
          cases copy : slotPair storage id with
          | valid seq payload =>
              have stamp := agreed id
              rw [copy] at stamp
              cases stamp
          | _ => rfl
      rw [DoubleBuffer.read, blank]
      rfl

theorem slotRunInvariant_erased : SlotRunInvariant 0 storageInit none := by
  refine ⟨fun id seq stamp => ?_, slotPair_erased⟩
  rw [slotPair_erased id] at stamp
  cases stamp

theorem configInit_blank {m : Manager} (fresh : m.initialised = false) {storage : Storage}
    (blank : readPayload .none storage = none) :
    (configInit true .none storage m).1 = .ok () := by
  have room : slotPayloadMaxBytes ≤ (loadDefaultsLocked m).blobBuf.bytes.length :=
    (loadDefaultsLocked m).blobBuf.size_eq.ge
  have absent : DoubleBuffer.newest (slotPair storage) = none := by
    rw [readPayload_none] at blank
    cases chosen : DoubleBuffer.newest (slotPair storage) with
    | none => rfl
    | some id =>
        obtain ⟨seq, payload, copy⟩ := DoubleBuffer.newest_valid chosen
        rw [DoubleBuffer.read_of_newest chosen copy] at blank
        cases blank
  rw [configInit, if_neg (by simp [fresh]), if_neg (by decide)]
  simp only [slotPickActive_noValid room absent]

/-- Slots in which a reader finds a configuration, or nothing in place of the defaults. -/
def Loads (storage : Storage) (cache : ConfigCache) : Prop :=
  match readPayload .none storage with
  | none => cache = .defaults
  | some payload => payload = cache.settings.payload

theorem Loads.boot {storage : Storage} {cache : ConfigCache} (loads : Loads storage cache)
    (valid : cache.Valid) {m : Manager} (fresh : m.initialised = false) :
    (configInit true .none storage m).1 = .ok () ∧
      (configInit true .none storage m).2.initialised = true ∧
      (configInit true .none storage m).2.Holds cache.settings := by
  obtain ⟨ready, holds, status⟩ := configInit_boot fresh .none storage
  cases found : readPayload .none storage with
  | none =>
      rw [Loads, found] at loads
      rw [found] at holds
      obtain rfl := loads
      exact ⟨configInit_blank fresh found, ready, holds⟩
  | some payload =>
      obtain ⟨reread, clean⟩ := valid.storable.boot_payload
      rw [Loads, found] at loads
      rw [found] at holds status
      dsimp only at loads
      rw [loads] at holds status
      rw [reread] at holds
      exact ⟨status.trans clean, ready, holds⟩

theorem Stored.loads {cache : ConfigCache} {saves : Nat} {storage : Storage}
    (stored : Stored cache saves storage) : Loads storage cache := by
  obtain ⟨committed, invariant, agreed⟩ := stored
  rw [Loads, readPayload_of_invariant invariant]
  cases committed with
  | none => exact agreed
  | some payload => exact agreed

theorem Stored.boot {cache : ConfigCache} {saves : Nat} {storage : Storage}
    (stored : Stored cache saves storage) (valid : cache.Valid) {m : Manager}
    (fresh : m.initialised = false) :
    (configInit true .none storage m).1 = .ok () ∧
      (configInit true .none storage m).2.initialised = true ∧
      (configInit true .none storage m).2.Holds cache.settings :=
  stored.loads.boot valid fresh

/-! An epoch. -/

/-- Everything a step can do: move the task and the queue, call a setter, encode, or
write a slot. -/
inductive StepEffect (system : EepromSystem) : EepromSystem → Prop where
  | moved (queue : List EepromRequest) (point : TaskPoint) (log : ConfigLog)
      (room : queue.length ≤ system.queue.length ∨ queue.length ≤ eepromQueueDepth) :
      StepEffect system { system with queue, point, log }
  | called (task : Option Nat) (domain : Domain) (idx : UInt8) (input : Option domain.Record)
      (point : TaskPoint) :
      StepEffect system { (system.setStep task domain idx input).2 with point }
  | encoded (blobBuf : BlobBuf) (point : TaskPoint) :
      StepEffect system { system with manager := { system.manager with blobBuf }, point }
  | written (blobLen : Nat) (here : system.point = .write blobLen) :
      StepEffect system
        { system with
          storage := (configSaveWrite .none system.storage system.manager blobLen).2
          point := .receive
          saves := system.saves + 1 }

theorem taskStep_effect (system : EepromSystem) : StepEffect system system.taskStep := by
  rw [EepromSystem.taskStep]
  cases here : system.point with
  | receive =>
      cases queue : system.queue with
      | nil => exact .moved _ _ _ (.inl (Nat.le_refl _))
      | cons request rest =>
          exact .moved rest _ _ (.inl (by rw [queue]; exact Nat.le_succ _))
  | process request dirty => exact .moved _ _ _ (.inl (Nat.le_refl _))
  | apply domain idx record dirty =>
      have effect := @StepEffect.called system none domain idx (some record)
      dsimp only
      generalize system.setStep none domain idx (some record) = outcome at effect ⊢
      rcases outcome with ⟨status | done, stored⟩
      · exact effect (.drain dirty)
      · exact effect (.drain true)
  | drain dirty =>
      cases queue : system.queue with
      | nil => exact .moved _ _ _ (.inl (Nat.zero_le _))
      | cons request rest =>
          exact .moved rest _ _ (.inl (by rw [queue]; exact Nat.le_succ _))
  | encode =>
      rw [configSaveEncode]
      split_ifs
      · exact .moved _ _ _ (.inl (Nat.le_refl _))
      · dsimp only
        rcases (encodeCacheLocked system.manager.cache system.manager.unknown
          system.manager.blobBuf.bytes).1 with status | blobLen
        · exact .encoded _ _
        · exact .encoded _ _
  | write blobLen => exact .written blobLen here

theorem systemStep_effect (system : EepromSystem) (action : SystemAction) :
    StepEffect system (systemStep system action) := by
  have sends : ∀ {request queue}, xQueueSend system.queue request = some queue →
      queue.length ≤ eepromQueueDepth := by
    intro request queue accepted
    rw [xQueueSend] at accepted
    split_ifs at accepted with room
    obtain rfl := Option.some.inj accepted
    rw [List.length_append]
    exact room
  have idle : StepEffect system system := .moved _ _ _ (.inl (Nat.le_refl _))
  cases action with
  | set task domain idx input =>
      have effect := @StepEffect.called system (some task) domain (requestIndex domain idx) input
      rw [systemStep, EepromSystem.setStep]
      rw [EepromSystem.setStep] at effect
      generalize configSetRecord domain system.manager (requestIndex domain idx) input = outcome
        at effect ⊢
      rcases outcome with ⟨status | done, manager⟩ <;> exact effect system.point
  | queueChange task type item param value =>
      rw [systemStep, queueConfigChange]
      split_ifs
      · exact idle
      · cases sent : xQueueSend system.queue (.field type item param value) with
        | none => exact idle
        | some queue => exact .moved queue _ _ (.inr (sends sent))
  | queueCommit task =>
      rw [systemStep, queueConfigCommit]
      cases sent : xQueueSend system.queue .commit with
      | none => exact idle
      | some queue => exact .moved queue _ _ (.inr (sends sent))
  | eepromTask => exact taskStep_effect system

/-- A setter call changes the manager and the log only, and not whether it is ready. -/
theorem setStep_frame (system : EepromSystem) (task : Option Nat) (domain : Domain) (idx : UInt8)
    (input : Option domain.Record) :
    ∃ cache log, (system.setStep task domain idx input).2 =
      { system with manager := { system.manager with cache }, log } := by
  have effect := configSetRecord_effect domain system.manager idx input
  rw [EepromSystem.setStep]
  generalize configSetRecord domain system.manager idx input = outcome at effect ⊢
  cases effect with
  | refused status => exact ⟨system.manager.cache, system.log, rfl⟩
  | stored key record ready valid => exact ⟨_, _, rfl⟩

/-- The storage changes, and a write is counted, at the slot write of a save only. -/
theorem systemStep_storage (system : EepromSystem) (action : SystemAction) :
    ((systemStep system action).storage = system.storage ∧
      (systemStep system action).saves = system.saves) ∨
    ∃ blobLen, system.point = .write blobLen ∧
      (systemStep system action).storage =
        (configSaveWrite .none system.storage system.manager blobLen).2 ∧
      (systemStep system action).saves = system.saves + 1 := by
  have effect := systemStep_effect system action
  generalize systemStep system action = next at effect ⊢
  cases effect with
  | moved queue point log room => exact .inl ⟨rfl, rfl⟩
  | called task domain idx input point =>
      obtain ⟨cache, log, frame⟩ := setStep_frame system task domain idx input
      rw [frame]
      exact .inl ⟨rfl, rfl⟩
  | encoded blobBuf point => exact .inl ⟨rfl, rfl⟩
  | written blobLen here => exact .inr ⟨blobLen, here, rfl, rfl⟩

theorem saves_le_run (system : EepromSystem) (actions : List SystemAction) :
    system.saves ≤ (Machine.run systemStep system actions).saves := by
  induction actions generalizing system with
  | nil => exact Nat.le_refl _
  | cons action actions ih =>
      have now : system.saves ≤ (systemStep system action).saves := by
        rcases systemStep_storage system action with ⟨-, kept⟩ | ⟨blobLen, -, -, counted⟩
        · exact kept.ge
        · exact counted ▸ Nat.le_succ _
      exact now.trans (ih (systemStep system action))

theorem saves_le_powerLoss (system : EepromSystem) (ending : SlotWriteEnd) :
    system.saves ≤ (system.powerLoss ending).2 := by
  rw [EepromSystem.powerLoss]
  cases system.point with
  | write blobLen => exact Nat.le_succ _
  | _ => exact Nat.le_refl _

theorem powerCycle_saves_le (system : EepromSystem) (ending : SlotWriteEnd) :
    (system.powerCycle ending).saves ≤ system.saves + 1 := by
  rw [EepromSystem.powerCycle, EepromSystem.reboot, EepromSystem.powerLoss]
  cases system.point with
  | write blobLen => exact Nat.le_refl _
  | _ => exact Nat.le_succ _

/-- An epoch that started from `base`. Slots that were never committed to have the next
boot load the defaults, so they are the base then. -/
structure Running (base : ConfigCache) (system : EepromSystem) (state : State StoreEvent Nat) :
    Prop where
  covers : Covers state
  refines : Refines base system state
  blank : (∀ id, (slotPair system.storage id).stamp? = none) → base = .defaults

section Epoch

variable {base : ConfigCache} {system : EepromSystem} {state : State StoreEvent Nat}

/-- The bytes at the slot write are the payload of the captured prefix. -/
theorem Refines.writing (refines : Refines base system state) {blobLen : Nat}
    (point : system.point = .write blobLen) :
    ∃ length, state.capture = some length ∧ ∃ payload : SlotPayload,
      payload.bytes = (replay base (system.log.take length)).settings.payload ∧
        ∀ storage faults, (configSaveWrite faults storage system.manager blobLen).2 =
          (slotWrite faults storage payload.bytes).2 := by
  have captured := refines.captured
  rw [Captured, point] at captured
  obtain ⟨length, taken, payload⟩ := captured
  refine ⟨length, taken, (replay base (system.log.take length)).settings.slotPayload
    (ConfigCache.payload_fits _), rfl, fun storage faults => ?_⟩
  rw [configSaveWrite_storage, payload]
  rfl

theorem Running.step (running : Running base system state) (action : SystemAction) :
    ∃ next, Relation.ReflTransGen Step state next ∧
      Running base (systemStep system action) next := by
  obtain ⟨next, steps, refined⟩ := running.refines.step running.covers action
  refine ⟨next, steps, running.covers.run steps, refined, fun unstamped => ?_⟩
  rcases systemStep_storage system action with ⟨kept, -⟩ | ⟨blobLen, point, written, -⟩
  · rw [kept] at unstamped
    exact running.blank unstamped
  · -- a slot write leaves a stamp in its target
    obtain ⟨-, -, payload, -, same⟩ := running.refines.writing point
    rw [written, same, (slotWrite_commit system.storage payload).2] at unstamped
    have stamp := unstamped (DoubleBuffer.target (· + 1) 1 (slotPair system.storage)).1
    rw [DoubleBuffer.commit_target] at stamp
    cases stamp

theorem Running.run (running : Running base system state) (actions : List SystemAction) :
    ∃ next, Relation.ReflTransGen Step state next ∧
      Running base (Machine.run systemStep system actions) next := by
  induction actions generalizing system state with
  | nil => exact ⟨state, .refl, running⟩
  | cons action actions ih =>
      obtain ⟨middle, first, between⟩ := running.step action
      obtain ⟨next, rest, reached⟩ := ih between
      exact ⟨next, first.trans rest, reached⟩

theorem Running.stored (running : Running base system state) (few : system.saves < 2 ^ 32) :
    Stored (replay base (system.log.take state.durable)) system.saves system.storage := by
  obtain ⟨committed, invariant, agreed⟩ := running.refines.persisted few
  refine ⟨committed, invariant, ?_⟩
  cases committed with
  | none =>
      dsimp only at agreed
      rw [agreed]
      exact running.blank invariant.2
  | some payload => exact agreed

theorem slotRunInvariant_cut {made : Nat} {storage : Storage} {committed : Option SlotPayload}
    {ending : SlotWriteEnd} (cut : ending ≠ .completed) (payload : SlotPayload)
    (invariant : SlotRunInvariant made storage committed) :
    SlotRunInvariant (made + 1) (slotWrite ending.faults storage payload.bytes).2 committed := by
  cases ending with
  | completed => exact absurd rfl cut
  | payloadCut written =>
      exact slotRunInvariant_torn rfl (.inl (by simp [SlotWriteEnd.faults])) invariant
  | headerMissing => exact slotRunInvariant_torn rfl (.inr rfl) invariant

theorem Stored.torn {cache : ConfigCache} {saves : Nat} {storage : Storage}
    (stored : Stored cache saves storage) {ending : SlotWriteEnd} (cut : ending ≠ .completed)
    (payload : SlotPayload) :
    Stored cache (saves + 1) (slotWrite ending.faults storage payload.bytes).2 := by
  obtain ⟨committed, invariant, agreed⟩ := stored
  exact ⟨committed, slotRunInvariant_cut cut payload invariant, agreed⟩

/-- The slots that the supply leaves hold a prefix of the log, no shorter than the
durable one. -/
theorem Running.powerLoss (running : Running base system state) (ending : SlotWriteEnd)
    (few : (system.powerLoss ending).2 < 2 ^ 32) :
    ∃ kept, state.durable ≤ kept ∧
      Stored (replay base (system.log.take kept)) (system.powerLoss ending).2
        (system.powerLoss ending).1 := by
  have stored := running.stored ((saves_le_powerLoss system ending).trans_lt few)
  cases point : system.point with
  | write blobLen =>
      obtain ⟨length, taken, payload, bytes, written⟩ := running.refines.writing point
      simp only [EepromSystem.powerLoss, point, written] at few ⊢
      by_cases cut : ending = .completed
      · subst cut
        obtain ⟨committed, invariant, -⟩ := stored
        exact ⟨length, (running.covers.captured length taken).1, some payload,
          slotRunInvariant_completed few invariant, bytes⟩
      · exact ⟨state.durable, Nat.le_refl _, stored.torn cut payload⟩
  | _ =>
      rw [EepromSystem.powerLoss, point]
      exact ⟨state.durable, Nat.le_refl _, stored⟩

end Epoch

/-! Epoch after epoch. -/

/-- The boot over slots that load a valid cache starts an epoch from that cache. -/
theorem Stored.running {cache : ConfigCache} {saves : Nat} {storage : Storage}
    (stored : Stored cache saves storage) (valid : cache.Valid) {m : Manager}
    (fresh : m.initialised = false) :
    (EepromSystem.reboot m storage saves).manager.cache = cache ∧
      Running cache (.reboot m storage saves) .init := by
  obtain ⟨-, ready, holds⟩ := stored.boot valid fresh
  have loaded : (EepromSystem.reboot m storage saves).manager.cache = cache := holds.1
  obtain ⟨committed, invariant, agreed⟩ := stored
  refine ⟨loaded, covers_init, ?_, fun unstamped => ?_⟩
  · exact {
      ready := ready
      cache := loaded
      held := by
        rw [loaded]
        exact holds
      valid := fun event listed => absurd listed List.not_mem_nil
      log := rfl
      pending := rfl
      captured := rfl
      persisted := fun _ => by
        refine ⟨committed, invariant, ?_⟩
        cases committed with
        | none => rfl
        | some payload => exact agreed }
  · cases committed with
    | none => exact agreed
    | some payload =>
        obtain ⟨seq, copy⟩ := invariant.2
        have stamp := unstamped (DoubleBuffer.target (· + 1) 1 (slotPair storage)).1.other
        rw [EepromSystem.reboot, copy] at stamp
        cases stamp

/-- The state in which an epoch starts. -/
def Booted (system : EepromSystem) : Prop :=
  system.saves < 2 ^ 32 →
    system.manager.cache.Valid ∧ Running system.manager.cache system .init

theorem booted_boot {m : Manager} (fresh : m.initialised = false) : Booted (.boot m) := by
  intro _
  obtain ⟨-, valid, -⟩ := boot_valid fresh
  refine ⟨valid, covers_init, refines_boot fresh, fun unstamped => ?_⟩
  have holds := (configInit_boot fresh .none storageInit).2.1
  rw [readPayload_of_invariant slotRunInvariant_erased] at holds
  exact holds.1

theorem reboot_ready {m : Manager} (fresh : m.initialised = false) (storage : Storage)
    (saves : Nat) : (EepromSystem.reboot m storage saves).manager.initialised = true :=
  (configInit_boot fresh .none storage).1

theorem booted_ready {m : Manager} (fresh : m.initialised = false) (epochs : List PowerEpoch) :
    (Machine.run powerEpoch (.boot m) epochs).manager.initialised = true := by
  have preserved : ∀ system epoch, True → system.manager.initialised = true →
      (powerEpoch system epoch).manager.initialised = true := by
    intro system epoch _ _
    unfold powerEpoch EepromSystem.powerCycle
    exact @reboot_ready .powerUp rfl _ _
  exact Machine.run_invariant powerEpoch (boot_valid fresh).1 preserved fun _ _ => trivial

/-- When the supply fails, the slots hold a prefix of the log that has every commit in
it which `eeprom_task` had seen when it was last idle. -/
theorem Running.epoch {base : ConfigCache} {system : EepromSystem}
    {state : State StoreEvent Nat} (running : Running base system state)
    (blocked : system.point = .receive) (empty : system.queue = [])
    (later : List SystemAction) (ending : SlotWriteEnd) {live : EepromSystem}
    (reached : live = Machine.run systemStep system later)
    (few : (live.powerLoss ending).2 < 2 ^ 32) :
    ∃ kept, kept <+: live.log ∧ ValidLog kept ∧
      Stored (replay base kept) (live.powerLoss ending).2 (live.powerLoss ending).1 ∧
      ∀ i task, system.log[i]? = some (.commit task) → system.log.take (i + 1) <+: kept := by
  have clean : state.pending = false := by
    rw [running.refines.pending, EepromSystem.pending, blocked, empty]
    rfl
  have free := running.refines.free fun blobLen => by simp [blocked]
  obtain ⟨next, steps, there⟩ := running.run later
  rw [← reached] at there
  obtain ⟨durable, grown⟩ := running.covers.run_grows steps
  obtain ⟨length, longer, stored⟩ := there.powerLoss ending few
  refine ⟨_, List.take_prefix _ _, there.refines.valid.take length, stored, ?_⟩
  intro i task found
  rw [← running.refines.log] at found ⊢
  rw [← there.refines.log]
  have promised := running.covers.committed free clean found
  have inside : i + 1 ≤ state.log.length := (List.getElem?_eq_some_iff.mp found).1
  have same : next.log.take (i + 1) = state.log.take (i + 1) := by
    obtain ⟨rest, appended⟩ := grown
    rw [← appended, List.take_append_of_le_length inside]
  rw [← same]
  exact List.take_prefix_take_left (by omega)

theorem Booted.next {system : EepromSystem} (booted : Booted system) (epoch : PowerEpoch) :
    Booted (powerEpoch system epoch) := by
  intro few
  have within := (saves_le_powerLoss (Machine.run systemStep system epoch.actions)
    epoch.ending).trans_lt few
  obtain ⟨valid, running⟩ := booted ((saves_le_run system epoch.actions).trans_lt within)
  obtain ⟨next, -, there⟩ := running.run epoch.actions
  obtain ⟨length, -, stored⟩ := there.powerLoss epoch.ending few
  have kept := replay_valid valid (there.refines.valid.take length)
  obtain ⟨loaded, again⟩ := @Stored.running _ _ _ stored kept .powerUp rfl
  rw [powerEpoch, EepromSystem.powerCycle, loaded]
  exact ⟨kept, again⟩

theorem booted_run {m : Manager} (fresh : m.initialised = false) (epochs : List PowerEpoch) :
    Booted (Machine.run powerEpoch (.boot m) epochs) := by
  have preserved : ∀ system epoch, True → Booted system → Booted (powerEpoch system epoch) :=
    fun _ epoch _ booted => booted.next epoch
  exact Machine.run_invariant powerEpoch (booted_boot fresh) preserved fun _ _ => trivial

/-- After any epochs, a power failure leaves the next boot a prefix of what was stored
since the last one, with every commit in it that `eeprom_task` had seen when it was idle,
whatever became of the slot write under way. -/
theorem powerCycle_recovers {m : Manager} (fresh : m.initialised = false)
    (epochs : List PowerEpoch) {booted idle live : EepromSystem}
    (started : booted = Machine.run powerEpoch (.boot m) epochs) (earlier : List SystemAction)
    (stopped : idle = Machine.run systemStep booted earlier) (blocked : idle.point = .receive)
    (empty : idle.queue = []) (later : List SystemAction)
    (reached : live = Machine.run systemStep idle later) (ending : SlotWriteEnd)
    (few : (live.powerCycle ending).saves < 2 ^ 32) :
    ∃ kept, kept <+: live.log ∧
      (∀ i task, idle.log[i]? = some (.commit task) → idle.log.take (i + 1) <+: kept) ∧
      (configInit true .none (live.powerLoss ending).1 .powerUp).1 = .ok () ∧
      (live.powerCycle ending).manager.cache = replay booted.manager.cache kept ∧
      (live.powerCycle ending).manager.cache.Valid := by
  have within : live.saves < 2 ^ 32 := (saves_le_powerLoss live ending).trans_lt few
  have before : booted.saves ≤ idle.saves := stopped ▸ saves_le_run booted earlier
  have after : idle.saves ≤ live.saves := reached ▸ saves_le_run idle later
  obtain ⟨valid, running⟩ := (started ▸ booted_run fresh epochs : Booted booted) (by omega)
  obtain ⟨state, -, there⟩ := running.run earlier
  rw [← stopped] at there
  obtain ⟨kept, inside, accepted, stored, commits⟩ :=
    there.epoch blocked empty later ending reached few
  have sound := replay_valid valid accepted
  obtain ⟨loaded, -⟩ := @Stored.running _ _ _ stored sound .powerUp rfl
  refine ⟨kept, inside, commits, (@Stored.boot _ _ _ stored sound .powerUp rfl).1, loaded, ?_⟩
  rw [EepromSystem.powerCycle, loaded]
  exact sound

theorem powerCycle_recovers_single :
    ∃ kept, kept <+: committedSystem.log ∧
      (∀ i task, committedSystem.log[i]? = some (.commit task) →
        committedSystem.log.take (i + 1) <+: kept) ∧
      (configInit true .none (committedSystem.powerLoss .headerMissing).1 .powerUp).1 = .ok () ∧
      (committedSystem.powerCycle .headerMissing).manager.cache =
        replay (EepromSystem.boot .powerUp).manager.cache kept ∧
      (committedSystem.powerCycle .headerMissing).manager.cache.Valid :=
  have ⟨blocked, empty, _, saves⟩ := committedSystem_blocked
  have few : (committedSystem.powerCycle .headerMissing).saves < 2 ^ 32 :=
    (powerCycle_saves_le _ _).trans_lt (by rw [saves]; decide)
  have stopped : committedSystem = Machine.run systemStep (.boot .powerUp)
      (savingActions ++ [.eepromTask, .eepromTask]) := by
    rw [committedSystem]
  @powerCycle_recovers .powerUp rfl [] (.boot .powerUp) committedSystem committedSystem
    (Machine.run_nil powerEpoch _).symm _ stopped blocked empty []
    (Machine.run_nil systemStep _).symm .headerMissing few

end ConfigWp
