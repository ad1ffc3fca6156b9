import ConfigWp.Application.Quiescence
import ConfigWp.Application.SlotReads

/-! A boot that cannot read the slots. `eeprom_manager_init` carries on with the defaults,
and the first save writes these, with what was stored since, over what was stored before.
Until then nothing is lost: the boot after a power failure loads the old configuration. -/

set_option autoImplicit false

namespace ConfigWp

open WriteBehind

/-- `eeprom_manager_init` while some reads of the storage fail, without the erase of the
in-memory `storage_init`. -/
def EepromSystem.faultyReboot (faults : SlotReadFaults) (m : Manager) (storage : Storage)
    (saves : Nat) : EepromSystem where
  storage
  manager := (configInit true faults storage m).2
  queue := []
  point := .receive
  log := []
  saves

/-- The system over other slots. -/
def EepromSystem.onMedium (system : EepromSystem) (medium : Storage × Nat) : EepromSystem :=
  { system with storage := medium.1, saves := medium.2 }

/-- What a step of `eeprom_task` makes of the slots. -/
def EepromSystem.nextMedium (system : EepromSystem) (medium : Storage × Nat) :
    SystemAction → Storage × Nat
  | .eepromTask =>
      match system.point with
      | .write blobLen =>
          ((configSaveWrite .none medium.1 system.manager blobLen).2, medium.2 + 1)
      | _ => medium
  | _ => medium

/-! The boot. -/

theorem failed_reads {faults : SlotReadFaults} {storage : Storage} {m : Manager}
    (fresh : m.initialised = false)
    (failed : (configInit true faults storage m).1 = .error .errStorage) :
    readPayload faults storage = none := by
  obtain ⟨-, -, status⟩ := configInit_boot fresh faults storage
  cases found : readPayload faults storage with
  | none => rfl
  | some payload =>
      rw [found] at status
      dsimp only at status
      rw [failed, bootStatus] at status
      split_ifs at status
      cases status

theorem faultyReboot_defaults {faults : SlotReadFaults} {m : Manager} {storage : Storage}
    (saves : Nat) (fresh : m.initialised = false)
    (failed : (configInit true faults storage m).1 = .error .errStorage) :
    (EepromSystem.faultyReboot faults m storage saves).manager.initialised = true ∧
      (EepromSystem.faultyReboot faults m storage saves).manager.Holds
        ConfigCache.defaults.settings := by
  obtain ⟨ready, holds, -⟩ := configInit_boot fresh faults storage
  rw [failed_reads fresh failed] at holds
  exact ⟨ready, holds⟩

theorem Loads.rebooted {m : Manager} {storage : Storage} {cache : ConfigCache}
    (loads : Loads storage cache) (valid : cache.Valid) (fresh : m.initialised = false)
    (saves : Nat) : (EepromSystem.reboot m storage saves).manager.cache = cache :=
  (loads.boot valid fresh).2.2.1

theorem Loads.powerCycle {system : EepromSystem} {ending : SlotWriteEnd} {cache : ConfigCache}
    (loads : Loads (system.powerLoss ending).1 cache) (valid : cache.Valid) :
    (system.powerCycle ending).manager.cache = cache := by
  rw [EepromSystem.powerCycle]
  exact @Loads.rebooted .powerUp _ _ loads valid rfl _

/-! The same steps over two media. -/

theorem setStep_onMedium (system : EepromSystem) (medium : Storage × Nat) (task : Option Nat)
    (domain : Domain) (idx : UInt8) (input : Option domain.Record) :
    (system.onMedium medium).setStep task domain idx input =
      ((system.setStep task domain idx input).1,
        (system.setStep task domain idx input).2.onMedium medium) := by
  have same : (system.onMedium medium).manager = system.manager := rfl
  rw [EepromSystem.setStep, EepromSystem.setStep, same]
  rcases configSetRecord domain system.manager idx input with ⟨status | done, manager⟩ <;> rfl

theorem taskStep_onMedium (system : EepromSystem) (medium : Storage × Nat) :
    (system.onMedium medium).taskStep =
      system.taskStep.onMedium (system.nextMedium medium .eepromTask) := by
  have moved : (system.onMedium medium).point = system.point := rfl
  rw [EepromSystem.taskStep, EepromSystem.taskStep, EepromSystem.nextMedium, moved]
  cases system.point with
  | receive =>
      have same : (system.onMedium medium).queue = system.queue := rfl
      dsimp only
      rw [same]
      cases system.queue <;> rfl
  | process request dirty => rfl
  | apply domain idx record dirty =>
      dsimp only
      rw [setStep_onMedium]
      rcases system.setStep none domain idx (some record) with ⟨status | done, stored⟩ <;> rfl
  | drain dirty =>
      have same : (system.onMedium medium).queue = system.queue := rfl
      dsimp only
      rw [same]
      cases system.queue <;> rfl
  | encode =>
      have same : (system.onMedium medium).manager = system.manager := rfl
      dsimp only
      rw [same]
      rcases configSaveEncode system.manager with ⟨status | blobLen, manager⟩ <;> rfl
  | write blobLen => rfl

theorem systemStep_onMedium (system : EepromSystem) (medium : Storage × Nat)
    (action : SystemAction) :
    systemStep (system.onMedium medium) action =
      (systemStep system action).onMedium (system.nextMedium medium action) := by
  cases action with
  | set task domain idx input =>
      rw [systemStep, systemStep, setStep_onMedium]
      rfl
  | queueChange task type item param value =>
      have same : (system.onMedium medium).queue = system.queue := rfl
      rw [systemStep, systemStep, queueConfigChange, queueConfigChange, same]
      split_ifs
      · rfl
      · cases xQueueSend system.queue (.field type item param value) <;> rfl
  | queueCommit task =>
      have same : (system.onMedium medium).queue = system.queue := rfl
      rw [systemStep, systemStep, queueConfigCommit, queueConfigCommit, same]
      cases xQueueSend system.queue .commit <;> rfl
  | eepromTask => exact taskStep_onMedium system medium

/-- A step leaves any medium as it is, or writes a slot of it. -/
theorem nextMedium_cases (system : EepromSystem) (action : SystemAction) :
    (∀ medium, system.nextMedium medium action = medium) ∨
      ∃ blobLen, system.point = .write blobLen ∧ ∀ medium, system.nextMedium medium action =
        ((configSaveWrite .none medium.1 system.manager blobLen).2, medium.2 + 1) := by
  cases action with
  | eepromTask =>
      simp only [EepromSystem.nextMedium]
      cases system.point with
      | write blobLen => exact .inr ⟨blobLen, rfl, fun _ => rfl⟩
      | _ => exact .inl fun _ => rfl
  | _ => exact .inl fun _ => rfl

/-! Two media under the same saves. -/

/-- The first medium holds what it held before the saves, and the second nothing, or both
hold the payload of the last save. -/
inductive SameSaves (original : Option SlotPayload) (medium shadow : Storage × Nat) : Prop where
  | unsaved (held : SlotRunInvariant medium.2 medium.1 original)
      (blank : SlotRunInvariant shadow.2 shadow.1 none) : SameSaves original medium shadow
  | saved (payload : SlotPayload) (held : SlotRunInvariant medium.2 medium.1 (some payload))
      (shadowed : SlotRunInvariant shadow.2 shadow.1 (some payload)) :
      SameSaves original medium shadow

/-- A run over the slots that could not be read, beside the one over erased slots. -/
structure Shadowed (original : Option SlotPayload) (system shadow : EepromSystem) : Prop where
  same : system = shadow.onMedium (system.storage, system.saves)
  fewer : shadow.saves ≤ system.saves
  media : system.saves < 2 ^ 32 →
    SameSaves original (system.storage, system.saves) (shadow.storage, shadow.saves)

section Shadow

variable {original : Option SlotPayload} {system shadow : EepromSystem}
  {state : State StoreEvent Nat}

theorem SameSaves.completed {medium other : Storage × Nat}
    (same : SameSaves original medium other) (few : medium.2 + 1 < 2 ^ 32)
    (fewer : other.2 ≤ medium.2) (payload : SlotPayload) :
    SlotRunInvariant (medium.2 + 1) (slotWrite .none medium.1 payload.bytes).2 (some payload) ∧
      SlotRunInvariant (other.2 + 1) (slotWrite .none other.1 payload.bytes).2 (some payload) := by
  have room : other.2 + 1 < 2 ^ 32 := by omega
  cases same with
  | unsaved held blank =>
      exact ⟨slotRunInvariant_completed few held, slotRunInvariant_completed room blank⟩
  | saved last held shadowed =>
      exact ⟨slotRunInvariant_completed few held, slotRunInvariant_completed room shadowed⟩

/-- Over slots without a commit nothing is durable. -/
theorem Running.durable_of_blank {base : ConfigCache} (running : Running base shadow state)
    (few : shadow.saves < 2 ^ 32) {made : Nat}
    (blank : SlotRunInvariant made shadow.storage none) : state.durable = 0 := by
  obtain ⟨committed, invariant, agreed⟩ := running.refines.persisted few
  have found := (readPayload_of_invariant invariant).symm.trans (readPayload_of_invariant blank)
  cases committed with
  | none => exact agreed
  | some payload => cases found

theorem Shadowed.step (shadowed : Shadowed original system shadow)
    (running : Running .defaults shadow state) (action : SystemAction) :
    Shadowed original (systemStep system action) (systemStep shadow action) := by
  obtain ⟨same, fewer, media⟩ := shadowed
  have stepped := systemStep_onMedium shadow (system.storage, system.saves) action
  have own : systemStep shadow action = (systemStep shadow action).onMedium
      (shadow.nextMedium (shadow.storage, shadow.saves) action) :=
    systemStep_onMedium shadow (shadow.storage, shadow.saves) action
  rw [← same] at stepped
  rcases nextMedium_cases shadow action with still | ⟨blobLen, point, written⟩
  · rw [still] at stepped own
    rw [stepped, own]
    exact ⟨rfl, fewer, media⟩
  · obtain ⟨-, -, payload, -, writes⟩ := running.refines.writing point
    rw [written, writes] at stepped own
    rw [stepped, own]
    refine ⟨rfl, Nat.succ_le_succ fewer, fun few => ?_⟩
    obtain ⟨held, shadowed⟩ := (media (Nat.lt_of_succ_lt few)).completed few fewer payload
    exact .saved payload held shadowed

theorem Shadowed.run (shadowed : Shadowed original system shadow)
    (running : Running .defaults shadow state) (actions : List SystemAction) :
    Shadowed original (Machine.run systemStep system actions)
      (Machine.run systemStep shadow actions) := by
  induction actions generalizing system shadow state with
  | nil => exact shadowed
  | cons action actions ih =>
      obtain ⟨next, -, there⟩ := running.step action
      exact ih (shadowed.step running action) there

/-- What the supply leaves: nothing was saved, or the same in both. -/
theorem Shadowed.powerLoss (shadowed : Shadowed original system shadow)
    (running : Running .defaults shadow state) (ending : SlotWriteEnd)
    (few : (system.powerLoss ending).2 < 2 ^ 32) :
    (readPayload .none (system.powerLoss ending).1 = original.map SlotPayload.bytes ∧
      state.durable = 0) ∨
    readPayload .none (system.powerLoss ending).1 =
      readPayload .none (shadow.powerLoss ending).1 := by
  have within := (saves_le_powerLoss system ending).trans_lt few
  obtain ⟨same, fewer, media⟩ := shadowed
  have below : shadow.saves < 2 ^ 32 := fewer.trans_lt within
  have spent : SlotRunInvariant shadow.saves shadow.storage none → state.durable = 0 :=
    running.durable_of_blank below
  have point : system.point = shadow.point := by rw [same]; rfl
  have manager : system.manager = shadow.manager := by rw [same]; rfl
  cases here : shadow.point with
  | write blobLen =>
      obtain ⟨-, -, payload, -, writes⟩ := running.refines.writing here
      have lost : system.powerLoss ending =
          ((slotWrite ending.faults system.storage payload.bytes).2, system.saves + 1) := by
        rw [EepromSystem.powerLoss, point, here, manager]
        dsimp only
        rw [writes]
      have lostShadow : shadow.powerLoss ending =
          ((slotWrite ending.faults shadow.storage payload.bytes).2, shadow.saves + 1) := by
        rw [EepromSystem.powerLoss, here]
        dsimp only
        rw [writes]
      rw [lost] at few
      rw [lost, lostShadow]
      by_cases cut : ending = .completed
      · subst cut
        obtain ⟨held, shadowed⟩ := (media within).completed few fewer payload
        exact .inr ((readPayload_of_invariant held).trans
          (readPayload_of_invariant shadowed).symm)
      · cases media within with
        | unsaved held blank =>
            exact .inl ⟨readPayload_of_invariant (slotRunInvariant_cut cut payload held),
              spent blank⟩
        | saved last held shadowed =>
            exact .inr ((readPayload_of_invariant (slotRunInvariant_cut cut payload held)).trans
              (readPayload_of_invariant (slotRunInvariant_cut cut payload shadowed)).symm)
  | _ =>
      rw [EepromSystem.powerLoss, EepromSystem.powerLoss, point, here]
      cases media within with
      | unsaved held blank => exact .inl ⟨readPayload_of_invariant held, spent blank⟩
      | saved last held shadowed =>
          exact .inr ((readPayload_of_invariant held).trans
            (readPayload_of_invariant shadowed).symm)

theorem Shadowed.powerLoss_fewer (shadowed : Shadowed original system shadow)
    (ending : SlotWriteEnd) : (shadow.powerLoss ending).2 ≤ (system.powerLoss ending).2 := by
  obtain ⟨same, fewer, -⟩ := shadowed
  have point : system.point = shadow.point := by rw [same]; rfl
  rw [EepromSystem.powerLoss, EepromSystem.powerLoss, point]
  cases shadow.point with
  | write blobLen => exact Nat.succ_le_succ fewer
  | _ => exact fewer

/-- A power failure leaves the slots unsaved, and then no commit had been worked off, or
with a prefix of the log from the failed boot on. -/
theorem Shadowed.epoch (shadowed : Shadowed original system shadow)
    (running : Running .defaults shadow state) (blocked : system.point = .receive)
    (empty : system.queue = []) (later : List SystemAction) (ending : SlotWriteEnd)
    {live : EepromSystem} (reached : live = Machine.run systemStep system later)
    (few : (live.powerLoss ending).2 < 2 ^ 32) :
    (readPayload .none (live.powerLoss ending).1 = original.map SlotPayload.bytes ∧
      ∀ (i task : Nat), system.log[i]? ≠ some (.commit task)) ∨
    ∃ kept, kept <+: live.log ∧ ValidLog kept ∧
      (∀ i task, system.log[i]? = some (.commit task) → system.log.take (i + 1) <+: kept) ∧
      Loads (live.powerLoss ending).1 (replay .defaults kept) := by
  have point : system.point = shadow.point := by rw [shadowed.same]; rfl
  have queue : system.queue = shadow.queue := by rw [shadowed.same]; rfl
  have log : system.log = shadow.log := by rw [shadowed.same]; rfl
  rw [point] at blocked
  rw [queue] at empty
  rw [log]
  subst reached
  have onward := shadowed.run running later
  have events : (Machine.run systemStep system later).log =
      (Machine.run systemStep shadow later).log := by rw [onward.same]; rfl
  obtain ⟨next, steps, there⟩ := running.run later
  rcases onward.powerLoss there ending few with ⟨unsaved, spent⟩ | agreed
  · refine .inl ⟨unsaved, fun i task found => ?_⟩
    -- a commit worked off is durable, and nothing is
    have clean : state.pending = false := by
      rw [running.refines.pending, EepromSystem.pending, blocked, empty]
      rfl
    have free := running.refines.free fun blobLen => by simp [blocked]
    rw [← running.refines.log] at found
    have promised := running.covers.committed free clean found
    have grown := (running.covers.run_grows steps).1
    omega
  · obtain ⟨kept, inside, accepted, stored, commits⟩ := running.epoch blocked empty later ending
      rfl ((onward.powerLoss_fewer ending).trans_lt few)
    refine .inr ⟨kept, events ▸ inside, accepted, commits, ?_⟩
    rw [Loads, agreed]
    exact stored.loads

end Shadow

/-! From a failed boot on. -/

section Failed

variable {faults : SlotReadFaults} {m : Manager} {storage : Storage} {saves : Nat}
  {degraded : EepromSystem}

/-- Over erased slots the failed boot is the first one. -/
theorem faultyReboot_running (fresh : m.initialised = false)
    (failed : (configInit true faults storage m).1 = .error .errStorage)
    (rebooted : degraded = .faultyReboot faults m storage saves) :
    Running .defaults (degraded.onMedium (storageInit, 0)) .init := by
  obtain ⟨ready, holds⟩ := faultyReboot_defaults saves fresh failed
  refine ⟨covers_init, ?_, fun _ => rfl⟩
  subst rebooted
  exact {
    ready := ready
    cache := holds.1
    held := by
      have loaded : ((EepromSystem.faultyReboot faults m storage saves).onMedium
          (storageInit, 0)).manager.cache = .defaults := holds.1
      rw [loaded]
      exact holds
    valid := fun event listed => absurd listed List.not_mem_nil
    log := rfl
    pending := rfl
    captured := rfl
    persisted := fun _ => ⟨none, slotRunInvariant_erased, rfl⟩ }

theorem faultyReboot_shadowed {original : Option SlotPayload}
    (rebooted : degraded = .faultyReboot faults m storage saves)
    (held : SlotRunInvariant saves storage original) :
    Shadowed original degraded (degraded.onMedium (storageInit, 0)) := by
  subst rebooted
  exact ⟨rfl, Nat.zero_le _, fun _ => .unsaved held slotRunInvariant_erased⟩

end Failed

/-- A boot that cannot read the slots runs on with the defaults. What the next boot loads is
the configuration from before, as long as no commit has been worked off, or the defaults with
what was stored since then, up to the last save. -/
theorem failedBoot_forgets {m : Manager} (fresh : m.initialised = false)
    (epochs : List PowerEpoch) {booted stopped degraded idle live : EepromSystem}
    (started : booted = Machine.run powerEpoch (.boot m) epochs) (before : List SystemAction)
    (reached : stopped = Machine.run systemStep booted before) (ending : SlotWriteEnd)
    {faults : SlotReadFaults}
    (failed : (configInit true faults (stopped.powerLoss ending).1 .powerUp).1 =
      .error .errStorage)
    (rebooted : degraded = .faultyReboot faults .powerUp (stopped.powerLoss ending).1
      (stopped.powerLoss ending).2)
    (earlier : List SystemAction) (settled : idle = Machine.run systemStep degraded earlier)
    (blocked : idle.point = .receive) (empty : idle.queue = []) (later : List SystemAction)
    (onward : live = Machine.run systemStep idle later) (last : SlotWriteEnd)
    (few : (live.powerCycle last).saves < 2 ^ 32) :
    degraded.manager.cache = .defaults ∧
      ((live.powerCycle last).manager.cache = (stopped.powerCycle ending).manager.cache ∧
          (∀ (i task : Nat), idle.log[i]? ≠ some (.commit task)) ∨
        ∃ kept, kept <+: live.log ∧
          (∀ i task, idle.log[i]? = some (.commit task) → idle.log.take (i + 1) <+: kept) ∧
          (live.powerCycle last).manager.cache = replay .defaults kept) := by
  have within : (live.powerLoss last).2 < 2 ^ 32 := few
  have rank : booted.saves ≤ (stopped.powerLoss ending).2 :=
    (reached ▸ saves_le_run booted before : booted.saves ≤ stopped.saves).trans
      (saves_le_powerLoss stopped ending)
  have again : degraded.saves ≤ live.saves :=
    (settled ▸ saves_le_run degraded earlier : degraded.saves ≤ idle.saves).trans
      (onward ▸ saves_le_run idle later)
  have counted : degraded.saves = (stopped.powerLoss ending).2 := by rw [rebooted]; rfl
  have lost := saves_le_powerLoss live last
  obtain ⟨valid, running⟩ := (started ▸ booted_run fresh epochs : Booted booted) (by omega)
  obtain ⟨state, -, there⟩ := running.run before
  rw [← reached] at there
  obtain ⟨length, -, stored⟩ := there.powerLoss ending (by omega)
  have sound := replay_valid valid (there.refines.valid.take length)
  have loads := stored.loads
  obtain ⟨original, held, -⟩ := stored
  -- the run from the failed boot, beside the one from an erased storage
  have blank := @faultyReboot_running faults .powerUp _ _ degraded rfl failed rebooted
  have shadowed := faultyReboot_shadowed rebooted held
  obtain ⟨state', -, idling⟩ := blank.run earlier
  have beside := shadowed.run blank earlier
  rw [← settled] at beside
  have loaded : degraded.manager.cache = .defaults := by
    rw [rebooted]
    exact (@faultyReboot_defaults faults .powerUp _ _ rfl failed).2.1
  refine ⟨loaded, ?_⟩
  rcases beside.epoch idling blocked empty later last onward within with
    ⟨unsaved, uncommitted⟩ | ⟨kept, inside, accepted, commits, reads⟩
  · refine .inl ⟨?_, uncommitted⟩
    rw [← readPayload_of_invariant held] at unsaved
    rw [loads.powerCycle sound]
    rw [Loads, ← unsaved] at loads
    exact Loads.powerCycle loads sound
  · exact .inr ⟨kept, inside, commits,
      reads.powerCycle (replay_valid ConfigCache.valid_defaults accepted)⟩

/-! A medium that answers no read. -/

theorem slotPickActive_deadMedium (storage : Storage) {buf : List UInt8}
    (room : slotPayloadMaxBytes ≤ buf.length) :
    (slotPickActive deadMedium storage buf).1 = .error .errStorage := by
  rw [slotPickActive, if_neg (Nat.not_lt.mpr room)]
  rfl

theorem configInit_deadMedium {m : Manager} (fresh : m.initialised = false) (storage : Storage) :
    (configInit true deadMedium storage m).1 = .error .errStorage := by
  have room : slotPayloadMaxBytes ≤ (loadDefaultsLocked m).blobBuf.bytes.length :=
    (loadDefaultsLocked m).blobBuf.size_eq.ge
  rw [configInit, if_neg (by simp [fresh]), if_neg (by decide)]
  simp only [slotPickActive_deadMedium storage room]

/-- A commit after a boot that could read nothing, and turns enough to save it. -/
def forgetfulSystem : EepromSystem :=
  .faultyReboot deadMedium .powerUp (committedSystem.powerLoss .completed).1
    (committedSystem.powerLoss .completed).2

def forgetfulActions : List SystemAction := .queueCommit 0 :: List.replicate 53 .eepromTask

def forgottenSystem : EepromSystem := Machine.run systemStep forgetfulSystem forgetfulActions

theorem faultyReboot_saves_le (faults : SlotReadFaults) (m : Manager) (system : EepromSystem)
    (ending : SlotWriteEnd) :
    (EepromSystem.faultyReboot faults m (system.powerLoss ending).1
      (system.powerLoss ending).2).saves ≤ system.saves + 1 :=
  powerCycle_saves_le system ending

theorem blocked_after_commit {system : EepromSystem} (bounded : QueueBounded system) :
    (Machine.run systemStep system forgetfulActions).point = .receive ∧
      (Machine.run systemStep system forgetfulActions).queue = [] ∧
      (Machine.run systemStep system forgetfulActions).saves ≤ system.saves + 54 := by
  have few := saves_run_le system forgetfulActions
  rw [forgetfulActions, Machine.run_cons] at few ⊢
  obtain ⟨blocked, empty⟩ := @blocked_after_turns _ (bounded.step (.queueCommit 0))
    (List.replicate 53 .eepromTask) (by simp [SystemAction.quiet]) (by decide)
  exact ⟨blocked, empty, few⟩

theorem forgottenSystem_blocked :
    forgottenSystem.point = .receive ∧ forgottenSystem.queue = [] ∧
      forgottenSystem.saves ≤ forgetfulSystem.saves + 54 := by
  have started : QueueBounded forgetfulSystem := Nat.zero_le _
  rw [forgottenSystem]
  exact blocked_after_commit started

theorem failedBoot_forgets_single :
    forgetfulSystem.manager.cache = .defaults ∧
      ((forgottenSystem.powerCycle .completed).manager.cache =
            (committedSystem.powerCycle .completed).manager.cache ∧
          (∀ (i task : Nat), forgottenSystem.log[i]? ≠ some (.commit task)) ∨
        ∃ kept, kept <+: forgottenSystem.log ∧
          (∀ i task, forgottenSystem.log[i]? = some (.commit task) →
            forgottenSystem.log.take (i + 1) <+: kept) ∧
          (forgottenSystem.powerCycle .completed).manager.cache = replay .defaults kept) :=
  have ⟨blocked, empty, saves⟩ := forgottenSystem_blocked
  have few : (forgottenSystem.powerCycle .completed).saves < 2 ^ 32 := by
    have first : forgetfulSystem.saves ≤ committedSystem.saves + 1 :=
      faultyReboot_saves_le deadMedium .powerUp committedSystem .completed
    have last := powerCycle_saves_le forgottenSystem .completed
    rw [committedSystem_blocked.2.2.2] at first
    omega
  have stopped : committedSystem = Machine.run systemStep (.boot .powerUp)
      (savingActions ++ [.eepromTask, .eepromTask]) := by
    rw [committedSystem]
  @failedBoot_forgets .powerUp rfl [] (.boot .powerUp) committedSystem forgetfulSystem
    forgottenSystem forgottenSystem (Machine.run_nil powerEpoch _).symm _ stopped .completed
    deadMedium (@configInit_deadMedium .powerUp rfl _) (by rw [forgetfulSystem])
    forgetfulActions (by rw [forgottenSystem]) blocked empty []
    (Machine.run_nil systemStep _).symm .completed few

end ConfigWp
