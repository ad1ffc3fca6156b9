import ConfigWp.Firmware.ImportTasks

/-! What an import comes to among the other tasks. While they leave the records of its
document alone, it does to these what it does alone, and once its commit is queued and
worked off a power failure does not undo it. -/

set_option autoImplicit false

namespace ConfigWp

section Imports

variable {undefined : Rat → Int32} {parse : List UInt8 → Option Json} {firmware : Firmware}
  {importer : Importer}

/-- How far an import is: the updates it has done gave the records of its document what
they give them alone, and a record that it has read is still the one in the cache. -/
inductive Imported (undefined : Rat → Int32) (plan : List ImportUpdate) (start : Manager)
    (importer : Importer) (firmware : Firmware) : Prop where
  | reading (done rest : List ImportUpdate) (split : plan = done ++ rest)
      (here : firmware.point importer = .reading rest)
      (agrees : ∀ update ∈ plan, firmware.cache.get update.key =
        (applyUpdates undefined start done).cache.get update.key) :
      Imported undefined plan start importer firmware
  | storing (done rest : List ImportUpdate) (update : ImportUpdate)
      (split : plan = done ++ update :: rest)
      (here : firmware.point importer =
        .storing update (firmware.cache.get update.key) rest)
      (agrees : ∀ update ∈ plan, firmware.cache.get update.key =
        (applyUpdates undefined start done).cache.get update.key) :
      Imported undefined plan start importer firmware

/-- A step leaves the records of a plan alone. -/
def LeavesAlone (plan : List ImportUpdate) (before after : Firmware) : Prop :=
  ∀ update ∈ plan, after.cache.get update.key = before.cache.get update.key

variable {plan : List ImportUpdate} {start : Manager}

theorem leavesAlone_commit (plan : List ImportUpdate) (firmware : Firmware) (task : Nat) :
    LeavesAlone plan firmware
      (firmwareStep undefined parse firmware (.call (.queueCommit task))) := by
  intro update listed
  rw [firmwareStep, systemStep, queueConfigCommit]
  cases xQueueSend firmware.system.queue .commit <;> rfl

theorem Imported.others (imported : Imported undefined plan start importer firmware)
    {action : FirmwareAction} (others : action ≠ .importer importer)
    (alone : LeavesAlone plan firmware (firmwareStep undefined parse firmware action)) :
    Imported undefined plan start importer (firmwareStep undefined parse firmware action) := by
  cases imported with
  | reading done rest split here agrees =>
      have kept := @firmwareStep_point undefined parse firmware importer action others
        (by rw [here]; simp)
      exact .reading done rest split (kept.trans here) fun update listed =>
        (alone update listed).trans (agrees update listed)
  | storing done rest update split here agrees =>
      have kept := @firmwareStep_point undefined parse firmware importer action others
        (by rw [here]; simp)
      have listed : update ∈ plan := by rw [split]; simp
      refine .storing done rest update split ?_ fun update listed =>
        (alone update listed).trans (agrees update listed)
      rw [kept, here, alone update listed]

theorem get_set_congr {left right : ConfigCache} (key : RecordKey) (record : key.domain.Record)
    {other : RecordKey} (agrees : left.get other = right.get other) :
    (left.set key record).get other = (right.set key record).get other := by
  by_cases same : other = key
  · subst same
    rw [ConfigCache.get_set_same, ConfigCache.get_set_same]
  · rw [ConfigCache.get_set_other _ _ same, ConfigCache.get_set_other _ _ same, agrees]

theorem applyUpdates_snoc (m : Manager) (done : List ImportUpdate) (update : ImportUpdate) :
    applyUpdates undefined m (done ++ [update]) =
      applyUpdate undefined (applyUpdates undefined m done) update := by
  rw [applyUpdates, List.foldl_append]
  rfl

theorem Imported.own (imported : Imported undefined plan start importer firmware)
    (ready : firmware.system.manager.initialised = true)
    (going : firmware.point importer ≠ .reading []) :
    Imported undefined plan start importer
      (firmwareStep undefined parse firmware (.importer importer)) := by
  rw [firmwareStep]
  cases imported with
  | reading done rest split here agrees =>
      cases rest with
      | nil => exact absurd here going
      | cons update rest =>
          rw [importerStep_get ready here]
          exact .storing done rest update split (Function.update_self _ _ _) agrees
  | storing done rest update split here agrees =>
      have listed : update ∈ plan := by rw [split]; simp
      have whole : plan = (done ++ [update]) ++ rest := by rw [split, List.append_assoc]; rfl
      have read := agrees update listed
      rcases @importerStep_set undefined parse firmware importer update _ rest ready here with
        ⟨unfit, stepped⟩ | ⟨new, stored, stepped⟩
      · rw [stepped]
        refine .reading (done ++ [update]) rest whole (Function.update_self _ _ _) ?_
        rw [applyUpdates_snoc, applyUpdate, ← read, unfit]
        exact agrees
      · rw [stepped]
        refine .reading (done ++ [update]) rest whole (Function.update_self _ _ _) ?_
        rw [applyUpdates_snoc, applyUpdate, ← read, stored]
        exact fun other member => get_set_congr update.key new (agrees other member)

variable (undefined parse) in
/-- The others leave the records of the plan alone, and the importer does not come to its
commit before the end. -/
def Undisturbed (importer : Importer) (plan : List ImportUpdate) :
    Firmware → List FirmwareAction → Prop
  | _, [] => True
  | firmware, action :: actions =>
      let next := firmwareStep undefined parse firmware action
      (action ≠ .importer importer → LeavesAlone plan firmware next) ∧
        (action = .importer importer → firmware.point importer ≠ .reading []) ∧
        Undisturbed importer plan next actions

theorem Imported.run (imported : Imported undefined plan start importer firmware)
    (ready : firmware.system.manager.initialised = true) {actions : List FirmwareAction}
    (undisturbed : Undisturbed undefined parse importer plan firmware actions) :
    Imported undefined plan start importer
      (Machine.run (firmwareStep undefined parse) firmware actions) := by
  induction actions generalizing firmware with
  | nil => exact imported
  | cons action actions ih =>
      obtain ⟨alone, going, rest⟩ := undisturbed
      refine ih ?_ ((firmwareStep_initialised firmware action).trans ready) rest
      by_cases own : action = .importer importer
      · subst own
        exact imported.own ready (going rfl)
      · exact imported.others own (alone own)

/-- At its commit an import has given the records of its document what the import makes of
them alone. -/
theorem Imported.complete (imported : Imported undefined plan start importer firmware)
    (here : firmware.point importer = .reading []) {update : ImportUpdate}
    (listed : update ∈ plan) :
    firmware.cache.get update.key =
      (applyUpdates undefined start plan).cache.get update.key := by
  cases imported with
  | reading done rest split there agrees =>
      rw [here] at there
      obtain rfl := ImporterPoint.reading.inj there
      rw [List.append_nil] at split
      rw [split] at listed ⊢
      rw [split] at agrees
      exact agrees update listed
  | storing done rest update split there agrees =>
      rw [here] at there
      cases there

/-- The importer stores to no other record. -/
theorem importerStep_frame (ready : firmware.system.manager.initialised = true)
    (imported : Imported undefined plan start importer firmware) {key : RecordKey}
    (foreign : ∀ update ∈ plan, update.key ≠ key) :
    (importerStep undefined parse firmware importer).cache.get key = firmware.cache.get key := by
  cases imported with
  | reading done rest split here agrees =>
      cases rest with
      | nil =>
          rw [importerStep_commit here, queueConfigCommit]
          cases sent : xQueueSend firmware.system.queue .commit <;> simp [Firmware.move]
      | cons update rest =>
          rw [importerStep_get ready here]
          rfl
  | storing done rest update split here agrees =>
      rcases @importerStep_set undefined parse firmware importer update _ rest ready here with
        ⟨-, stepped⟩ | ⟨new, -, stepped⟩
      · rw [stepped]
        rfl
      · rw [stepped]
        have apart := foreign update (by rw [split]; simp)
        exact ConfigCache.get_set_other _ _ (Ne.symm apart)

theorem Undisturbed.front {earlier later : List FirmwareAction}
    (undisturbed : Undisturbed undefined parse importer plan firmware (earlier ++ later)) :
    Undisturbed undefined parse importer plan firmware earlier := by
  induction earlier generalizing firmware with
  | nil => trivial
  | cons action earlier ih =>
      obtain ⟨alone, going, rest⟩ := undisturbed
      exact ⟨alone, going, ih rest⟩

theorem imported_start {members : List (List UInt8 × Json)}
    (begun : firmware.point importer = .reading (importPlan members)) :
    Imported undefined (importPlan members) firmware.system.manager importer firmware :=
  .reading [] (importPlan members) rfl begun fun _ _ => rfl

theorem import_result {members : List (List UInt8 × Json)}
    (ready : firmware.system.manager.initialised = true)
    (begun : firmware.point importer = .reading (importPlan members))
    {during : List FirmwareAction}
    (undisturbed : Undisturbed undefined parse importer (importPlan members) firmware during)
    {after : Firmware}
    (imported : after = Machine.run (firmwareStep undefined parse) firmware during)
    (ended : after.point importer = .reading []) {update : ImportUpdate}
    (listed : update ∈ importPlan members) :
    after.cache.get update.key =
      (configImportDocument undefined (.object members) firmware.system.manager).2.manager.cache.get
        update.key := by
  have reached := (imported_start begun).run ready undisturbed
  rw [← imported] at reached
  rw [configImportDocument_plan ready]
  exact reached.complete ended listed

/-- An import whose steps other tasks come between gives the records of its document what
`config_import_json` gives them in one step, and touches no other record. -/
theorem import_isolated {members : List (List UInt8 × Json)}
    (ready : firmware.system.manager.initialised = true)
    (begun : firmware.point importer = .reading (importPlan members))
    {during : List FirmwareAction}
    (undisturbed : Undisturbed undefined parse importer (importPlan members) firmware during)
    {after : Firmware}
    (imported : after = Machine.run (firmwareStep undefined parse) firmware during)
    (ended : after.point importer = .reading []) :
    (∀ update ∈ importPlan members, after.cache.get update.key =
      (configImportDocument undefined (.object members) firmware.system.manager).2.manager.cache.get
        update.key) ∧
    ∀ earlier later, during = earlier ++ .importer importer :: later →
      ∀ key, (∀ update ∈ importPlan members, update.key ≠ key) →
        (Machine.run (firmwareStep undefined parse) firmware
            (earlier ++ [.importer importer])).cache.get key =
          (Machine.run (firmwareStep undefined parse) firmware earlier).cache.get key := by
  refine ⟨fun update listed => import_result ready begun undisturbed imported ended listed, ?_⟩
  intro earlier later split key foreign
  rw [split] at undisturbed
  have there := (imported_start begun).run ready undisturbed.front
  have still := firmware_run_initialised undefined parse firmware earlier
  rw [Machine.run_append]
  exact importerStep_frame (still.trans ready) there foreign

end Imports

/-! A document with one record. -/

def nodeUpdate : ImportUpdate := ⟨.system, .object [(ascii "canopen_node_id", .number 5)]⟩

def nodeDocument : List (List UInt8 × Json) := [(ascii "system", nodeUpdate.item)]

def nodeParse : List UInt8 → Option Json := parseOnly (nodeIdText "5") (.object nodeDocument)

def nodeStep : Firmware → FirmwareAction → Firmware := firmwareStep (fun _ => int32Min) nodeParse

def nodeReceipt : List FirmwareAction :=
  [.submit (some (nodeIdText "5")), .importer .extComms]

/-- `ext_task` has received the document. -/
def receivedFirmware : Firmware := Machine.run nodeStep (.boot (.boot .powerUp)) nodeReceipt

/-- The import, with a commit of another task between its getter and its setter. -/
def nodeActions : List FirmwareAction :=
  [.importer .extComms, .call (.queueCommit 7), .importer .extComms]

def importedFirmware : Firmware := Machine.run nodeStep receivedFirmware nodeActions

theorem nodeDocument_plan : importPlan nodeDocument = [nodeUpdate] := by
  have role : memberRole (ascii "system") = .record .system := by decide +kernel
  simp [importPlan, nodeDocument, nodeUpdate, memberPlan, role, systemPlan]

theorem receivedFirmware_point :
    receivedFirmware.point .extComms = .reading (importPlan nodeDocument) := by
  rfl

theorem receivedFirmware_ready : receivedFirmware.system.manager.initialised = true := by
  rw [receivedFirmware, nodeStep, firmware_run_initialised]
  exact (@booted_boot .powerUp rfl (Nat.two_pow_pos 32)).2.refines.ready

/-- The firmware when the import has read the record, and behind the commit of the other
task. -/
def readFirmware : Firmware := nodeStep receivedFirmware (.importer .extComms)

def crossedFirmware : Firmware := nodeStep readFirmware (.call (.queueCommit 7))

theorem readFirmware_point :
    readFirmware.point .extComms =
      .storing nodeUpdate (receivedFirmware.cache.get nodeUpdate.key) [] := by
  have begun := receivedFirmware_point
  rw [nodeDocument_plan] at begun
  have read := @importerStep_get (fun _ => int32Min) nodeParse _ _ _ _ receivedFirmware_ready begun
  rw [readFirmware, nodeStep, firmwareStep, read, move_own]

theorem crossedFirmware_point :
    crossedFirmware.point .extComms =
      .storing nodeUpdate (receivedFirmware.cache.get nodeUpdate.key) [] := by
  have kept := @firmwareStep_point (fun _ => int32Min) nodeParse readFirmware .extComms
    (.call (.queueCommit 7)) (by simp) (by rw [readFirmware_point]; simp)
  rw [crossedFirmware, nodeStep, kept, readFirmware_point]

theorem crossedFirmware_ready : crossedFirmware.system.manager.initialised = true := by
  rw [crossedFirmware, nodeStep, firmwareStep_initialised, readFirmware, nodeStep,
    firmwareStep_initialised]
  exact receivedFirmware_ready

theorem nodeActions_undisturbed :
    Undisturbed (fun _ => int32Min) nodeParse .extComms (importPlan nodeDocument)
      receivedFirmware nodeActions := by
  refine ⟨fun other => absurd rfl other, fun _ here => ?_, fun _ => leavesAlone_commit _ _ 7,
    fun own => ?_, fun other => absurd rfl other, fun _ here => ?_, trivial⟩
  · rw [receivedFirmware_point, nodeDocument_plan] at here
    cases here
  · cases own
  · rw [← nodeStep, ← readFirmware, ← crossedFirmware, crossedFirmware_point] at here
    cases here

theorem importedFirmware_last :
    importedFirmware = importerStep (fun _ => int32Min) nodeParse crossedFirmware .extComms := by
  rw [importedFirmware, nodeActions, Machine.run_cons, Machine.run_cons, Machine.run_cons,
    Machine.run_nil, ← readFirmware, ← crossedFirmware, nodeStep, firmwareStep]

theorem importedFirmware_point : importedFirmware.point .extComms = .reading [] := by
  rw [importedFirmware_last]
  rcases @importerStep_set (fun _ => int32Min) nodeParse _ _ _ _ _ crossedFirmware_ready
    crossedFirmware_point with ⟨-, stepped⟩ | ⟨new, -, stepped⟩
  · rw [stepped, move_own]
  · rw [stepped, move_own]

theorem import_isolated_node :
    (∀ update ∈ importPlan nodeDocument, importedFirmware.cache.get update.key =
      (configImportDocument (fun _ => int32Min) (.object nodeDocument)
        receivedFirmware.system.manager).2.manager.cache.get update.key) ∧
    ∀ earlier later, nodeActions = earlier ++ .importer .extComms :: later →
      ∀ key, (∀ update ∈ importPlan nodeDocument, update.key ≠ key) →
        (Machine.run (firmwareStep (fun _ => int32Min) nodeParse) receivedFirmware
            (earlier ++ [.importer .extComms])).cache.get key =
          (Machine.run (firmwareStep (fun _ => int32Min) nodeParse) receivedFirmware
            earlier).cache.get key :=
  import_isolated receivedFirmware_ready receivedFirmware_point nodeActions_undisturbed
    (by rw [importedFirmware, nodeStep]) importedFirmware_point

section Imports

variable {undefined : Rat → Int32} {parse : List UInt8 → Option Json} {firmware : Firmware}
  {importer : Importer}

/-- Stores to other records do not show in a replay. -/
theorem replay_foreign (base : ConfigCache) {key : RecordKey} (log more : ConfigLog)
    (foreign : ∀ event, .store event ∈ more → event.key ≠ key) :
    (replay base (log ++ more)).get key = (replay base log).get key := by
  induction more using List.reverseRecOn with
  | nil => rw [List.append_nil]
  | append_singleton more entry ih =>
      have before := ih fun event listed => foreign event (List.mem_append_left _ listed)
      rw [← List.append_assoc, replay_snoc]
      cases entry with
      | commit task => exact before
      | store event =>
          have apart := foreign event (List.mem_append_right _ (List.mem_singleton.mpr rfl))
          exact (ConfigCache.get_set_other _ _ (Ne.symm apart)).trans before

/-- What a record holds when an importer queues its commit survives a power failure once
`eeprom_task` has come to rest, until some task stores to the record again. -/
theorem commit_survives {m : Manager} (fresh : m.initialised = false) (epochs : List PowerEpoch)
    {booted : EepromSystem} (started : booted = Machine.run powerEpoch (.boot m) epochs)
    (earlier : List FirmwareAction) {after : Firmware}
    (imported : after = Machine.run (firmwareStep undefined parse) (.boot booted) earlier)
    (ended : after.point importer = .reading [])
    (room : after.system.queue.length < eepromQueueDepth) (settling : List FirmwareAction)
    {idle : Firmware}
    (settled : idle =
      Machine.run (firmwareStep undefined parse) after (.importer importer :: settling))
    (blocked : idle.system.point = .receive) (empty : idle.system.queue = [])
    (later : List FirmwareAction) {live : Firmware}
    (onward : live = Machine.run (firmwareStep undefined parse) idle later)
    (ending : SlotWriteEnd) (few : (live.system.powerCycle ending).saves < 2 ^ 32)
    {key : RecordKey}
    (kept : ∀ event, .store event ∈ live.system.log.drop after.system.log.length →
      event.key ≠ key) :
    (live.system.powerCycle ending).manager.cache.get key = after.cache.get key := by
  obtain ⟨first, firstRun⟩ := @firmware_run_system undefined parse (.boot booted) earlier
  obtain ⟨second, secondRun⟩ :=
    @firmware_run_system undefined parse
      (firmwareStep undefined parse after (.importer importer)) settling
  obtain ⟨third, thirdRun⟩ := @firmware_run_system undefined parse idle later
  rw [← imported] at firstRun
  rw [← Machine.run_cons, ← settled, firmwareStep, importerStep_commit ended] at secondRun
  rw [← onward] at thirdRun
  have within : live.system.saves < 2 ^ 32 := (saves_le_powerLoss _ ending).trans_lt few
  have early : booted.saves ≤ after.system.saves := firstRun ▸ saves_le_run booted first
  have mid : after.system.saves ≤ idle.system.saves := by
    rw [secondRun]
    exact saves_le_run after.system (.queueCommit importer.task :: second)
  have late : idle.system.saves ≤ live.system.saves := thirdRun ▸ saves_le_run idle.system third
  obtain ⟨valid, running⟩ := (started ▸ booted_run fresh epochs : Booted booted) (by omega)
  obtain ⟨state, -, there⟩ := running.run first
  have reachedAfter : after.system = Machine.run systemStep booted first := firstRun
  rw [← reachedAfter] at there
  -- the commit follows the log of the import
  obtain ⟨queued, -, committed⟩ := there.step (.queueCommit importer.task)
  obtain ⟨next, steps, rest⟩ := committed.run second
  have grown := (committed.covers.run_grows steps).2
  rw [committed.refines.log, rest.refines.log] at grown
  have logged : (systemStep after.system (.queueCommit importer.task)).log =
      after.system.log ++ [.commit importer.task] := by
    rw [systemStep, queueConfigCommit, xQueueSend, if_pos room]
  rw [logged] at grown
  have same : idle.system =
      Machine.run systemStep (systemStep after.system (.queueCommit importer.task)) second :=
    secondRun
  rw [← same] at rest grown
  have placed : idle.system.log[after.system.log.length]? = some (.commit importer.task) := by
    obtain ⟨more, whole⟩ := grown
    rw [← whole, List.append_assoc, List.getElem?_append_right (Nat.le_refl _), Nat.sub_self]
    rfl
  obtain ⟨saved, inside, accepted, stored, commits⟩ :=
    rest.epoch blocked empty third ending thirdRun few
  obtain ⟨loaded, -⟩ :=
    @Stored.running _ _ _ stored (replay_valid valid accepted) .powerUp rfl
  -- what is saved is the log of the import and stores to other records
  have begins : after.system.log <+: saved := by
    have promised := commits _ _ placed
    refine List.IsPrefix.trans (List.prefix_take_iff.mpr ⟨?_, Nat.le_succ _⟩) promised
    exact (List.prefix_append _ _).trans grown
  obtain ⟨more, rfl⟩ := begins
  have foreign : ∀ event, .store event ∈ more → event.key ≠ key := by
    intro event stores
    refine kept event ?_
    obtain ⟨rest, whole⟩ := inside
    rw [← whole, List.append_assoc, List.drop_left]
    exact List.mem_append_left _ stores
  rw [EepromSystem.powerCycle, loaded, replay_foreign _ _ _ foreign, ← there.refines.cache]

/-- Once the commit of an import is queued and `eeprom_task` has come to rest, a boot after
a power failure at any later moment loads what the import gave the records of its document,
until another task stores to them. -/
theorem import_durable {m : Manager} (fresh : m.initialised = false) (epochs : List PowerEpoch)
    {booted : EepromSystem} (started : booted = Machine.run powerEpoch (.boot m) epochs)
    (before : List FirmwareAction)
    (reached : firmware = Machine.run (firmwareStep undefined parse) (.boot booted) before)
    {members : List (List UInt8 × Json)}
    (begun : firmware.point importer = .reading (importPlan members))
    {during : List FirmwareAction}
    (undisturbed : Undisturbed undefined parse importer (importPlan members) firmware during)
    {after : Firmware}
    (imported : after = Machine.run (firmwareStep undefined parse) firmware during)
    (ended : after.point importer = .reading [])
    (room : after.system.queue.length < eepromQueueDepth) (settling : List FirmwareAction)
    {idle : Firmware}
    (settled : idle =
      Machine.run (firmwareStep undefined parse) after (.importer importer :: settling))
    (blocked : idle.system.point = .receive) (empty : idle.system.queue = [])
    (later : List FirmwareAction) {live : Firmware}
    (onward : live = Machine.run (firmwareStep undefined parse) idle later)
    (ending : SlotWriteEnd) (few : (live.system.powerCycle ending).saves < 2 ^ 32)
    (kept : ∀ event, .store event ∈ live.system.log.drop after.system.log.length →
      ∀ update ∈ importPlan members, event.key ≠ update.key) :
    ∀ update ∈ importPlan members,
      (live.system.powerCycle ending).manager.cache.get update.key =
        (configImportDocument undefined (.object members)
          firmware.system.manager).2.manager.cache.get update.key := by
  intro update listed
  have whole : after =
      Machine.run (firmwareStep undefined parse) (.boot booted) (before ++ during) := by
    rw [Machine.run_append, ← reached, imported]
  have ready : firmware.system.manager.initialised = true := by
    rw [reached, firmware_run_initialised, started]
    exact booted_ready fresh epochs
  rw [← import_result ready begun undisturbed imported ended listed]
  exact commit_survives fresh epochs started (before ++ during) whole ended room settling settled
    blocked empty later onward ending few fun event stores => kept event stores update listed

end Imports

/-! The commit of the import, up to its save and behind it. -/

def savingFirmware : Firmware :=
  Machine.run nodeStep importedFirmware
    (.importer .extComms :: (List.replicate 5 .eepromTask).map .call)

def savedFirmware : Firmware :=
  Machine.run nodeStep importedFirmware
    (.importer .extComms :: (List.replicate 7 .eepromTask).map .call)

theorem savingFirmware_encode :
    savingFirmware.system.point = .encode ∧ savingFirmware.system.queue = [] ∧
      savingFirmware.system.log.drop importedFirmware.system.log.length = [.commit 0] ∧
      savingFirmware.system.saves = 0 := by
  decide +kernel

theorem savedFirmware_blocked :
    savedFirmware.system.point = .receive ∧ savedFirmware.system.queue = [] ∧
      savedFirmware.system.log.drop importedFirmware.system.log.length = [.commit 0] ∧
      savedFirmware.system.saves = 1 := by
  obtain ⟨point, empty, history, saves⟩ := savingFirmware_encode
  obtain ⟨calls, reached⟩ := @firmware_run_system (fun _ => int32Min) nodeParse
    (.boot (.boot .powerUp)) (nodeReceipt ++ nodeActions ++
      .importer .extComms :: (List.replicate 5 .eepromTask).map .call)
  rw [Machine.run_append, Machine.run_append, ← nodeStep, ← receivedFirmware, ← importedFirmware,
    ← savingFirmware] at reached
  obtain ⟨state, -, running⟩ := (@booted_boot .powerUp rfl (Nat.two_pow_pos 32)).2.run calls
  have saving : savingFirmware.system = Machine.run systemStep (.boot .powerUp) calls := reached
  rw [← saving] at running
  have last : savedFirmware.system =
      Machine.run systemStep savingFirmware.system [.eepromTask, .eepromTask] := by
    rw [savingFirmware, savedFirmware, Machine.run_cons nodeStep, Machine.run_cons nodeStep,
      nodeStep, firmware_run_calls, firmware_run_calls]
    generalize firmwareStep _ nodeParse importedFirmware _ = committed
    exact Machine.run_append systemStep _ (List.replicate 5 .eepromTask) _
  have saved := running.refines.save point last
  rw [empty, saves] at saved
  rw [saved.2.2.1]
  exact ⟨saved.1, saved.2.1, history, saved.2.2.2⟩

theorem importedFirmware_room : importedFirmware.system.queue.length < eepromQueueDepth := by
  decide +kernel

theorem import_durable_node :
    (savedFirmware.system.powerCycle .headerMissing).manager.cache.get nodeUpdate.key =
      (configImportDocument (fun _ => int32Min) (.object nodeDocument)
        receivedFirmware.system.manager).2.manager.cache.get nodeUpdate.key :=
  have ⟨blocked, empty, history, saves⟩ := savedFirmware_blocked
  have few : (savedFirmware.system.powerCycle .headerMissing).saves < 2 ^ 32 :=
    (powerCycle_saves_le _ _).trans_lt (by rw [saves]; decide)
  @import_durable (fun _ => int32Min) nodeParse receivedFirmware .extComms .powerUp rfl []
    (.boot .powerUp) (Machine.run_nil powerEpoch _).symm
    nodeReceipt (by rw [receivedFirmware, nodeStep]) nodeDocument
    receivedFirmware_point nodeActions nodeActions_undisturbed importedFirmware
    (by rw [importedFirmware, nodeStep]) importedFirmware_point importedFirmware_room
    ((List.replicate 7 .eepromTask).map .call) savedFirmware (by rw [savedFirmware, nodeStep])
    blocked empty [] savedFirmware (Machine.run_nil nodeStep _).symm .headerMissing few
    (by rw [history]; simp) nodeUpdate (by rw [nodeDocument_plan]; exact List.mem_singleton.mpr rfl)

end ConfigWp
