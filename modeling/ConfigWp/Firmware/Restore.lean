import ConfigWp.Application.Quiescence
import ConfigWp.Drivers.UartBackup
import ConfigWp.Firmware.ImportRuns

/-! Backup and restore. The reply of one device to `AT+GET_CONFIG`, without the `OK` that
closes it, is sent to another one with `AT+SET_CONFIG`. Its import works off every record of
the backup, two steps for each, and what it commits is what the device boots with from then
on. -/

set_option autoImplicit false

namespace ConfigWp

/-! The plan of an export. -/

def exportedUpdate (m : Manager) (domain : Domain) (channel : Fin domain.count) : ImportUpdate :=
  ⟨⟨domain, channel⟩, exportedEntry domain m channel⟩

theorem entriesPlan_exported {domain : Domain} (io : domain ≠ .system) (m : Manager)
    {channels : List (Fin domain.count)} (distinct : channels.Nodup) {seen : UInt32}
    (unseen : ∀ channel ∈ channels, maskHas seen channel = false) :
    entriesPlan domain seen (channels.map (exportedEntry domain m)) =
      channels.map (exportedUpdate m domain) := by
  induction channels generalizing seen with
  | nil => rfl
  | cons channel channels ih =>
      obtain ⟨fresh, rest⟩ := List.nodup_cons.mp distinct
      have next : ∀ other ∈ channels, maskHas (maskMark seen channel) other = false := by
        intro other listed
        have apart : channel ≠ other := fun same => fresh (same ▸ listed)
        rw [maskHas_channel, unseen other (List.mem_cons_of_mem _ listed), decide_eq_false apart]
        rfl
      rw [List.map_cons, entriesPlan, entryChannel_exported io m channel]
      dsimp only
      rw [unseen channel List.mem_cons_self, if_neg Bool.false_ne_true, ih rest next]
      rfl

theorem memberPlan_exported (m : Manager) {domain : Domain} (io : domain ≠ .system) :
    memberPlan (.object (exportedDocument m)) (exportedArray m domain) =
      (List.finRange domain.count).map (exportedUpdate m domain) := by
  have plan := @entriesPlan_exported domain io m _ (List.nodup_finRange _) 0
    fun channel _ => maskHas_zero channel
  have entries := arrayEntries_exported m io
  rw [← exportedEntries, ← entries] at plan
  rw [memberPlan, exportedArray, memberRole_memberName]
  cases domain with
  | system => exact absurd rfl io
  | _ => exact plan

/-- An export asks to change every record, each one once. -/
theorem importPlan_exported (m : Manager) :
    importPlan (exportedDocument m) =
      ⟨.system, buildSystem m.cache.system⟩ ::
        [Domain.di, .do_, .tc, .ai, .ao, .pcnt, .pwm].flatMap fun domain =>
          (List.finRange domain.count).map (exportedUpdate m domain) := by
  have format : memberRole (ascii "format") = .format := by decide
  have system := memberRole_memberName .system
  rw [Domain.memberName] at system
  have first : memberPlan (.object (exportedDocument m)) (ascii "format", .number 2) = [] := by
    rw [memberPlan, format]
  have second : memberPlan (.object (exportedDocument m))
      (ascii "system", buildSystem m.cache.system) = [⟨.system, buildSystem m.cache.system⟩] := by
    rw [memberPlan, system]
    rfl
  have arrays : ∀ domains : List Domain, (∀ domain ∈ domains, domain ≠ .system) →
      (domains.map (exportedArray m)).flatMap (memberPlan (.object (exportedDocument m))) =
        domains.flatMap fun domain =>
          (List.finRange domain.count).map (exportedUpdate m domain) := by
    intro domains io
    rw [List.flatMap_map]
    exact List.flatMap_congr fun domain listed => memberPlan_exported m (io domain listed)
  unfold importPlan
  generalize Json.object (exportedDocument m) = root at first second arrays ⊢
  rw [exportedDocument, List.flatMap_cons, List.flatMap_cons, first, second,
    arrays _ (by decide)]
  rfl

theorem length_importPlan_exported (m : Manager) :
    (importPlan (exportedDocument m)).length = 57 := by
  rw [importPlan_exported, List.length_cons, List.length_flatMap]
  simp only [List.length_map, List.length_finRange]
  decide

theorem mem_importPlan_exported (m : Manager) (key : RecordKey) :
    ∃ update ∈ importPlan (exportedDocument m), update.key = key := by
  rw [importPlan_exported]
  obtain ⟨domain, channel⟩ := key
  by_cases io : domain = .system
  · subst io
    obtain rfl := Subsingleton.elim (⟨0, Nat.one_pos⟩ : Fin 1) channel
    exact ⟨_, List.mem_cons_self, rfl⟩
  · refine ⟨exportedUpdate m domain channel, List.mem_cons_of_mem _ ?_, rfl⟩
    refine List.mem_flatMap.mpr ⟨domain, ?_, List.mem_map_of_mem (List.mem_finRange channel)⟩
    cases domain <;> first | exact absurd rfl io | decide

/-! The steps of an import. -/

/-- The steps an importer is away from its commit. -/
def ImporterPoint.left : ImporterPoint → Option Nat
  | .waiting => none
  | .reading plan => some (2 * plan.length)
  | .storing _ _ plan => some (2 * plan.length + 1)

def FirmwareAction.turnOf (importer : Importer) : FirmwareAction → Bool
  | .importer other => decide (other = importer)
  | _ => false

section Turns

variable {undefined : Rat → Int32} {parse : List UInt8 → Option Json} {firmware : Firmware}
  {importer : Importer}

theorem turnOf_iff {action : FirmwareAction} :
    action.turnOf importer = true ↔ action = .importer importer := by
  cases action <;> simp [FirmwareAction.turnOf]

theorem left_eq_zero {point : ImporterPoint} (none : point.left = some 0) :
    point = .reading [] := by
  cases point with
  | waiting => cases none
  | reading plan =>
      cases plan with
      | nil => rfl
      | cons update plan => cases none
  | storing update record plan => cases none

theorem left_others {action : FirmwareAction} (others : action ≠ .importer importer) {n : Nat}
    (here : (firmware.point importer).left = some n) :
    ((firmwareStep undefined parse firmware action).point importer).left = some n := by
  have busy : firmware.point importer ≠ .waiting := by
    intro waiting
    rw [waiting] at here
    cases here
  rw [firmwareStep_point others busy, here]

theorem left_own (ready : firmware.system.manager.initialised = true) {n : Nat}
    (here : (firmware.point importer).left = some (n + 1)) :
    ((firmwareStep undefined parse firmware (.importer importer)).point importer).left =
      some n := by
  rw [firmwareStep]
  cases point : firmware.point importer with
  | waiting =>
      rw [point] at here
      cases here
  | reading plan =>
      rw [point] at here
      cases plan with
      | nil => cases here
      | cons update plan =>
          rw [importerStep_get ready point, move_own, ImporterPoint.left]
          rw [ImporterPoint.left, List.length_cons] at here
          have count := Option.some.inj here
          exact congrArg some (by omega)
  | storing update record plan =>
      rw [point, ImporterPoint.left] at here
      have count := Option.some.inj here
      have onward : (ImporterPoint.reading plan).left = some n := congrArg some (by omega)
      rcases @importerStep_set undefined parse _ _ _ _ _ ready point with
        ⟨-, stepped⟩ | ⟨new, -, stepped⟩
      · rw [stepped, move_own, onward]
      · rw [stepped, move_own, onward]

/-- Whatever the other tasks do, an importer comes to its commit in steps of its own. -/
theorem left_run (ready : firmware.system.manager.initialised = true) {n : Nat}
    (here : (firmware.point importer).left = some n) {actions : List FirmwareAction}
    (turns : actions.countP (·.turnOf importer) ≤ n) :
    ((Machine.run (firmwareStep undefined parse) firmware actions).point importer).left =
      some (n - actions.countP (·.turnOf importer)) := by
  induction actions generalizing firmware n with
  | nil => exact here
  | cons action actions ih =>
      have still := (@firmwareStep_initialised undefined parse firmware action).trans ready
      by_cases own : action = .importer importer
      · subst own
        rw [List.countP_cons_of_pos (turnOf_iff.mpr rfl)] at turns ⊢
        obtain ⟨rest, rfl⟩ := Nat.exists_eq_add_of_le' (Nat.le_trans (Nat.le_add_left _ _) turns)
        rw [Machine.run_cons, ih still (left_own ready here) (Nat.le_of_succ_le_succ turns),
          Nat.add_sub_add_right]
      · have other : ¬action.turnOf importer = true := fun turn => own (turnOf_iff.mp turn)
        rw [List.countP_cons_of_neg other] at turns ⊢
        exact ih still (left_others own here) turns

/-- An import that has not come to its commit is undisturbed if the others leave its records
alone. -/
theorem undisturbed_of_left (ready : firmware.system.manager.initialised = true) {n : Nat}
    (here : (firmware.point importer).left = some n) {plan : List ImportUpdate}
    {actions : List FirmwareAction} (turns : actions.countP (·.turnOf importer) ≤ n)
    (alone : ∀ earlier action later, actions = earlier ++ action :: later →
      action ≠ .importer importer →
      LeavesAlone plan (Machine.run (firmwareStep undefined parse) firmware earlier)
        (Machine.run (firmwareStep undefined parse) firmware (earlier ++ [action]))) :
    Undisturbed undefined parse importer plan firmware actions := by
  induction actions generalizing firmware n with
  | nil => trivial
  | cons action actions ih =>
      have still := (@firmwareStep_initialised undefined parse firmware action).trans ready
      have onward : ∀ earlier later' later, actions = earlier ++ later' :: later →
          later' ≠ .importer importer → LeavesAlone plan
            (Machine.run (firmwareStep undefined parse)
              (firmwareStep undefined parse firmware action) earlier)
            (Machine.run (firmwareStep undefined parse)
              (firmwareStep undefined parse firmware action) (earlier ++ [later'])) :=
        fun earlier next later split => alone (action :: earlier) next later (by rw [split]; rfl)
      refine ⟨alone [] action actions rfl, ?_, ?_⟩
      · rintro rfl ended
        rw [ended] at here
        obtain rfl := Option.some.inj here
        rw [List.countP_cons_of_pos (turnOf_iff.mpr rfl)] at turns
        exact absurd turns (Nat.not_succ_le_zero _)
      · by_cases own : action = .importer importer
        · subst own
          rw [List.countP_cons_of_pos (turnOf_iff.mpr rfl)] at turns
          obtain ⟨rest, rfl⟩ :=
            Nat.exists_eq_add_of_le' (Nat.le_trans (Nat.le_add_left _ _) turns)
          exact ih still (left_own ready here) (Nat.le_of_succ_le_succ turns) onward
        · have other : ¬action.turnOf importer = true := fun turn => own (turnOf_iff.mp turn)
          rw [List.countP_cons_of_neg other] at turns
          exact ih still (left_others own here) turns onward

/-- Up to its commit an importer queues nothing and does not move `eeprom_task`. -/
theorem import_alone (ready : firmware.system.manager.initialised = true) {n : Nat}
    (here : (firmware.point importer).left = some n) {after : Firmware}
    (reached : after = Machine.run (firmwareStep undefined parse) firmware
      (List.replicate n (.importer importer))) :
    after.system.queue = firmware.system.queue ∧ after.system.point = firmware.system.point := by
  induction n generalizing firmware with
  | zero =>
      subst reached
      exact ⟨rfl, rfl⟩
  | succ n ih =>
      have still := (@firmwareStep_initialised undefined parse firmware
        (.importer importer)).trans ready
      have onward := ih still (left_own ready here) reached
      have kept : (firmwareStep undefined parse firmware (.importer importer)).system.queue =
          firmware.system.queue ∧
          (firmwareStep undefined parse firmware (.importer importer)).system.point =
            firmware.system.point := by
        rw [firmwareStep]
        cases point : firmware.point importer with
        | waiting =>
            rw [point] at here
            cases here
        | reading plan =>
            cases plan with
            | nil =>
                rw [point] at here
                cases here
            | cons update plan =>
                rw [importerStep_get ready point]
                exact ⟨rfl, rfl⟩
        | storing update record plan =>
            rcases @importerStep_set undefined parse _ _ _ _ _ ready point with
              ⟨-, stepped⟩ | ⟨new, -, stepped⟩
            · rw [stepped]
              exact ⟨rfl, rfl⟩
            · rw [stepped]
              exact ⟨rfl, rfl⟩
      exact ⟨onward.1.trans kept.1, onward.2.trans kept.2⟩

theorem firmware_saves_le (firmware : Firmware) (actions : List FirmwareAction) :
    (Machine.run (firmwareStep undefined parse) firmware actions).system.saves ≤
      firmware.system.saves + actions.length := by
  induction actions generalizing firmware with
  | nil => exact Nat.le_refl _
  | cons action actions ih =>
      have rest := ih (firmwareStep undefined parse firmware action)
      have now : (firmwareStep undefined parse firmware action).system.saves ≤
          firmware.system.saves + 1 := by
        rcases @firmwareStep_call undefined parse firmware action with still | ⟨call, stepped⟩
        · rw [still]
          exact Nat.le_succ _
        · rw [stepped]
          exact saves_run_le firmware.system [call]
      rw [Machine.run_cons, List.length_cons]
      omega

end Turns

/-! The restored device. -/

section Restored

variable {print : Json → Option (List UInt8)} {undefined : Rat → Int32}
  {parse : List UInt8 → Option Json}

/-- The frame of a restore begins the import of the backup. -/
theorem restore_begins {target : Firmware} (waiting : target.point .uartSim = .waiting)
    {source : Manager} (ready : source.initialised = true) {text : List UInt8}
    (present : text ≠ []) (reparsed : parse text = some (configExportDocument source))
    {answers : List Recv}
    (sent : uartSimReceive [] answers = ascii "AT+SET_CONFIG\n" ++ text) :
    firmwareStep undefined parse target (.connect answers) =
      target.move .uartSim (.reading (importPlan (exportedDocument source))) := by
  rw [firmwareStep, uartSimAccept, waiting, sent, uartSimDispatch_setConfig]
  dsimp only
  rw [if_neg present, beginImport, reparsed, configExportDocument_eq ready]

theorem firmware_run_valid {booted : EepromSystem} (valid : booted.manager.cache.Valid)
    (actions : List FirmwareAction) :
    (Machine.run (firmwareStep undefined parse) (.boot booted) actions).cache.Valid := by
  obtain ⟨calls, reached⟩ := @firmware_run_system undefined parse (.boot booted) actions
  rw [Firmware.cache, reached]
  exact @Machine.run_invariant _ _ systemStep (fun system => system.manager.cache.Valid)
    (fun _ => True) booted valid (fun system action _ => systemStep_valid system action) calls
    fun _ _ => trivial

/-- Before the sequence numbers run out every boot loads a valid cache. -/
theorem firmware_booted_valid {m : Manager} (fresh : m.initialised = false)
    (epochs : List PowerEpoch) {booted : EepromSystem}
    (started : booted = Machine.run powerEpoch (.boot m) epochs) {live : Firmware}
    {actions : List FirmwareAction}
    (reached : live = Machine.run (firmwareStep undefined parse) (.boot booted) actions)
    (ending : SlotWriteEnd) (few : (live.system.powerCycle ending).saves < 2 ^ 32) :
    booted.manager.cache.Valid := by
  obtain ⟨calls, run⟩ := @firmware_run_system undefined parse (.boot booted) actions
  rw [← reached] at run
  have grown : booted.saves ≤ live.system.saves := run ▸ saves_le_run booted calls
  have within := (saves_le_powerLoss live.system ending).trans_lt few
  exact ((started ▸ booted_run fresh epochs : Booted booted) (grown.trans_lt within)).1

/-- The backup of one device, restored on another: once the import has had its two steps for
each of the 57 records, and `eeprom_task` has come to rest behind its commit, a boot after a
power failure at any later moment, with nothing stored since the import, loads the
configuration of the first device, exactly if every thermocouple that was set to kelvin there
was so here. -/
theorem restore_boots {m : Manager} (fresh : m.initialised = false) (epochs : List PowerEpoch)
    {booted : EepromSystem} (started : booted = Machine.run powerEpoch (.boot m) epochs)
    (before : List FirmwareAction) {target : Firmware}
    (reached : target = Machine.run (firmwareStep undefined parse) (.boot booted) before)
    (waiting : target.point .uartSim = .waiting)
    {source : Manager} (ready : source.initialised = true) (valid : source.cache.Valid)
    {text : List UInt8} (replied : uartSimHandleGet print source = text ++ ascii "\nOK\n")
    (present : text ≠ [])
    (reparses : ∀ printed, print (configExportDocument source) = some printed →
      parse (cString printed) = some (configExportDocument source))
    {answers : List Recv}
    (sent : uartSimReceive [] answers = ascii "AT+SET_CONFIG\n" ++ text)
    {begun after : Firmware}
    (began : begun = firmwareStep undefined parse target (.connect answers))
    {during : List FirmwareAction}
    (imported : after = Machine.run (firmwareStep undefined parse) begun during)
    (turns : during.countP (·.turnOf .uartSim) = 2 * 57)
    (alone : ∀ earlier action later, during = earlier ++ action :: later →
      action ≠ .importer .uartSim →
      (Machine.run (firmwareStep undefined parse) begun (earlier ++ [action])).cache =
        (Machine.run (firmwareStep undefined parse) begun earlier).cache)
    (room : after.system.queue.length < eepromQueueDepth) (settling : List FirmwareAction)
    {idle : Firmware}
    (settled : idle =
      Machine.run (firmwareStep undefined parse) after (.importer .uartSim :: settling))
    (blocked : idle.system.point = .receive) (empty : idle.system.queue = [])
    (later : List FirmwareAction) {live : Firmware}
    (onward : live = Machine.run (firmwareStep undefined parse) idle later)
    (ending : SlotWriteEnd) (few : (live.system.powerCycle ending).saves < 2 ^ 32)
    (kept : ∀ event, .store event ∉ live.system.log.drop after.system.log.length) :
    (∀ place, ((live.system.powerCycle ending).manager.cache.field place).Same
      (source.cache.field place)) ↔ KelvinAgrees source.cache target.cache := by
  obtain ⟨printed, shown, rfl⟩ := exported_of_reply replied
  have begins := @restore_begins undefined parse _ waiting _ ready _ present
    (reparses printed shown) _ sent
  rw [← began] at begins
  have cached : begun.system = target.system := by rw [begins]; rfl
  have point : begun.point .uartSim = .reading (importPlan (exportedDocument source)) := by
    rw [begins, move_own]
  have up : target.system.manager.initialised = true := by
    rw [reached, firmware_run_initialised, started]
    exact booted_ready fresh epochs
  have whole : after = Machine.run (firmwareStep undefined parse) (.boot booted)
      (before ++ .connect answers :: during) := by
    rw [Machine.run_append, ← reached, Machine.run_cons, ← began, imported]
  have onwards : live = Machine.run (firmwareStep undefined parse) (.boot booted)
      (before ++ .connect answers :: during ++ .importer .uartSim :: settling ++ later) := by
    rw [Machine.run_append, Machine.run_append, ← whole, ← settled, onward]
  have cold : target.cache.Valid := by
    rw [reached]
    exact firmware_run_valid (firmware_booted_valid fresh epochs started onwards ending few) before
  have left : (begun.point .uartSim).left = some (2 * 57) := by
    rw [point, ImporterPoint.left, length_importPlan_exported]
  have undisturbed := @undisturbed_of_left undefined parse _ .uartSim (by rw [cached, up]) _ left
    (importPlan (exportedDocument source)) during turns.le
    fun earlier action later split others update _ =>
      congrArg (·.get update.key) (alone earlier action later split others)
  have ended : after.point .uartSim = .reading [] := by
    have spent := @left_run undefined parse _ .uartSim (by rw [cached, up]) _ left during turns.le
    rw [turns, Nat.sub_self, ← imported] at spent
    exact left_eq_zero spent
  have survives : ∀ key, (live.system.powerCycle ending).manager.cache.get key =
      (configImportDocument undefined (.object (exportedDocument source))
        target.system.manager).2.manager.cache.get key := by
    intro key
    obtain ⟨update, listed, rfl⟩ := mem_importPlan_exported source key
    rw [commit_survives fresh epochs started _ whole ended room settling settled blocked empty
      later onward ending few fun event stores => absurd stores (kept event)]
    have result := import_result (by rw [cached, up]) point undisturbed imported ended listed
    rw [result, cached]
  rw [← restored_iff_kelvinAgrees valid]
  refine forall_congr' fun place => ?_
  rw [← field_exported undefined valid cold up place, ConfigCache.field, survives place.key]
  rfl

end Restored

/-! A restore with no other task about. -/

section Alone

variable (source : Manager) (booted : EepromSystem)

def backupText : List UInt8 := cString (printValue 0 (configExportDocument source))

def restoreStep : Firmware → FirmwareAction → Firmware :=
  firmwareStep (fun _ => int32Min) (parseExport source)

def restoreAnswers : List Recv := [.data (ascii "AT+SET_CONFIG\n" ++ backupText source)]

def restoringFirmware : Firmware :=
  restoreStep source (.boot booted) (.connect (restoreAnswers source))

@[irreducible] def restoreTurns : List FirmwareAction :=
  List.replicate (2 * 57) (.importer .uartSim)

def restoredFirmware : Firmware :=
  Machine.run (restoreStep source) (restoringFirmware source booted) restoreTurns

/-- The commit of the import, worked off. -/
def settlingActions : List FirmwareAction :=
  .importer .uartSim :: (List.replicate 5 .eepromTask).map .call

def settledFirmware : Firmware :=
  Machine.run (restoreStep source) (restoredFirmware source booted) settlingActions

variable {source booted}

theorem backup_replied (fits : (backupText source).length ≤ 16000) :
    uartSimHandleGet cJsonPrint source = backupText source ++ ascii "\nOK\n" := by
  have exported : configExportJson cJsonPrint (some uartSimTxBufBytes) source =
      .ok (backupText source) :=
    configExportJson_printed rfl (by rw [← backupText, uartSimTxBufBytes]; omega)
  rw [uartSimHandleGet, exported]

theorem restore_sent (fits : (backupText source).length ≤ 16000) :
    uartSimReceive [] (restoreAnswers source) =
      ascii "AT+SET_CONFIG\n" ++ backupText source := by
  refine uartSimReceive_frame ?_
  have header : (ascii "AT+SET_CONFIG\n").length = 14 := rfl
  rw [List.length_append, uartSimRxBufBytes]
  omega

theorem restoringFirmware_begins (ready : source.initialised = true)
    (present : backupText source ≠ []) (fits : (backupText source).length ≤ 16000) :
    restoringFirmware source booted =
      (Firmware.boot booted).move .uartSim (.reading (importPlan (exportedDocument source))) := by
  have waiting : (Firmware.boot booted).point .uartSim = .waiting := rfl
  exact @restore_begins (fun _ => int32Min) _ _ waiting _ ready _ present
    (parseExport_printed source) _ (restore_sent fits)

theorem restoringFirmware_left (ready : source.initialised = true)
    (present : backupText source ≠ []) (fits : (backupText source).length ≤ 16000) :
    ((restoringFirmware source booted).point .uartSim).left = some (2 * 57) := by
  rw [restoringFirmware_begins ready present fits, move_own, ImporterPoint.left,
    length_importPlan_exported]

theorem restoringFirmware_ready (up : booted.manager.initialised = true) :
    (restoringFirmware source booted).system.manager.initialised = true := by
  rw [restoringFirmware, restoreStep, firmwareStep_initialised]
  exact up

theorem countP_restoreTurns : restoreTurns.countP (·.turnOf .uartSim) = 2 * 57 := by
  rw [restoreTurns, List.countP_replicate]
  exact if_pos rfl

theorem restoredFirmware_ended (up : booted.manager.initialised = true)
    (ready : source.initialised = true) (present : backupText source ≠ [])
    (fits : (backupText source).length ≤ 16000) :
    (restoredFirmware source booted).point .uartSim = .reading [] := by
  have spent := @left_run (fun _ => int32Min) (parseExport source) _ _
    (restoringFirmware_ready up) _ (restoringFirmware_left ready present fits) restoreTurns
    countP_restoreTurns.le
  rw [countP_restoreTurns, Nat.sub_self] at spent
  exact left_eq_zero spent

theorem restoredFirmware_idle (up : booted.manager.initialised = true)
    (ready : source.initialised = true) (present : backupText source ≠ [])
    (fits : (backupText source).length ≤ 16000) :
    (restoredFirmware source booted).system.queue = booted.queue ∧
      (restoredFirmware source booted).system.point = booted.point := by
  have alone := import_alone (restoringFirmware_ready up)
    (restoringFirmware_left ready present fits)
    (show restoredFirmware source booted = _ by rw [restoredFirmware, restoreStep, restoreTurns])
  rw [alone.1, alone.2, restoringFirmware_begins ready present fits]
  exact ⟨rfl, rfl⟩

/-- A lone commit is worked off in five steps. -/
theorem commit_settles {system : EepromSystem} (idle : system.point = .receive)
    (only : system.queue = [.commit]) :
    (Machine.run systemStep system (List.replicate 5 .eepromTask)).point = .receive ∧
      (Machine.run systemStep system (List.replicate 5 .eepromTask)).queue = [] ∧
      (Machine.run systemStep system (List.replicate 5 .eepromTask)).log = system.log := by
  obtain ⟨storage, manager, queue, point, log, saves⟩ := system
  cases idle
  cases only
  simp only [List.replicate, Machine.run_cons, Machine.run_nil, systemStep, EepromSystem.taskStep,
    EepromSystem.processStep, if_true]
  rcases configSaveEncode manager with ⟨status | blobLen, encoded⟩
  · exact ⟨rfl, rfl, rfl⟩
  · exact ⟨rfl, rfl, rfl⟩

/-- The commit is worked off, and all that the log gains behind the import. -/
theorem settledFirmware_idle (up : booted.manager.initialised = true)
    (idle : booted.point = .receive) (empty : booted.queue = [])
    (ready : source.initialised = true) (present : backupText source ≠ [])
    (fits : (backupText source).length ≤ 16000) :
    (settledFirmware source booted).system.point = .receive ∧
      (settledFirmware source booted).system.queue = [] ∧
      (settledFirmware source booted).system.log =
        (restoredFirmware source booted).system.log ++ [.commit 1] := by
  obtain ⟨queue, point⟩ := @restoredFirmware_idle source booted up ready present fits
  have ended := @restoredFirmware_ended source booted up ready present fits
  have committed : (settledFirmware source booted).system =
      Machine.run systemStep
        (queueConfigCommit (restoredFirmware source booted).system 1).2
        (List.replicate 5 .eepromTask) := by
    rw [settledFirmware, settlingActions, restoreStep, Machine.run_cons, firmware_run_calls,
      firmwareStep, importerStep_commit ended]
    rfl
  have queued : (queueConfigCommit (restoredFirmware source booted).system 1).2 =
      { (restoredFirmware source booted).system with
        queue := [.commit]
        log := (restoredFirmware source booted).system.log ++ [.commit 1] } := by
    rw [queueConfigCommit, queue, empty]
    rfl
  rw [committed, queued]
  exact commit_settles (point.trans idle) rfl

theorem settledFirmware_saves :
    (settledFirmware source booted).system.saves ≤ booted.saves + 121 := by
  have bound := @firmware_saves_le (fun _ => int32Min) (parseExport source) (.boot booted)
    (.connect (restoreAnswers source) :: (restoreTurns ++ settlingActions))
  have count : (restoreTurns ++ settlingActions).length = 120 := by
    rw [List.length_append, restoreTurns, List.length_replicate]
    rfl
  rw [List.length_cons, count, Machine.run_cons, Machine.run_append] at bound
  exact bound

end Alone

/-! A backup with another node, restored on a device with its defaults. -/

def backupSource : Manager := .store .atDefaults .system committedRecord

theorem backupSource_valid : backupSource.cache.Valid :=
  ConfigCache.valid_defaults.set (by decide)

theorem backupSource_text :
    backupText backupSource ≠ [] ∧ (backupText backupSource).length ≤ 16000 := by
  have room := export_fits (rfl : backupSource.initialised = true) backupSource_valid
    (Nat.le_refl _)
  exact ⟨exportText_ne_nil backupSource, room.trans (by decide)⟩

theorem backupSource_kelvinAgrees (cache : ConfigCache) :
    KelvinAgrees backupSource.cache cache := by
  have none : ∀ channel : Fin Domain.tc.count,
      tcField (backupSource.cache.get ⟨.tc, channel⟩) .unit ≠
        .number TcUnit.kelvin.code.toNat := by decide +kernel
  exact fun channel kelvin => absurd kelvin (none channel)

theorem restore_boots_node :
    KelvinAgrees backupSource.cache (EepromSystem.boot .powerUp).manager.cache ∧
      ∀ place, (((settledFirmware backupSource (.boot .powerUp)).system.powerCycle
          .headerMissing).manager.cache.field place).Same (backupSource.cache.field place) := by
  have agrees := backupSource_kelvinAgrees (EepromSystem.boot .powerUp).manager.cache
  refine ⟨agrees, ?_⟩
  obtain ⟨present, fits⟩ := backupSource_text
  have ready : backupSource.initialised = true := rfl
  have up := (@boot_valid .powerUp rfl).1
  have unsaved : (EepromSystem.boot .powerUp).saves = 0 := rfl
  have started : EepromSystem.boot .powerUp = Machine.run powerEpoch (.boot .powerUp) [] :=
    (Machine.run_nil powerEpoch _).symm
  obtain ⟨queue, point⟩ := @restoredFirmware_idle backupSource _ up ready present fits
  obtain ⟨blocked, empty, history⟩ :=
    @settledFirmware_idle backupSource _ up rfl rfl ready present fits
  have room : (restoredFirmware backupSource (.boot .powerUp)).system.queue.length <
      eepromQueueDepth := by
    rw [queue]
    decide
  have lone : ∀ earlier action later, restoreTurns = earlier ++ action :: later →
      action ≠ .importer .uartSim →
      (Machine.run (restoreStep backupSource) (restoringFirmware backupSource (.boot .powerUp))
          (earlier ++ [action])).cache =
        (Machine.run (restoreStep backupSource)
          (restoringFirmware backupSource (.boot .powerUp)) earlier).cache := by
    intro earlier action later split others
    have listed : action ∈ restoreTurns := by rw [split]; simp
    rw [restoreTurns] at listed
    exact absurd (List.eq_of_mem_replicate listed) others
  have kept : ∀ event, .store event ∉
      (settledFirmware backupSource (.boot .powerUp)).system.log.drop
        (restoredFirmware backupSource (.boot .powerUp)).system.log.length := by
    intro event
    rw [history, List.drop_left]
    simp
  have few : ((settledFirmware backupSource (.boot .powerUp)).system.powerCycle
      .headerMissing).saves < 2 ^ 32 := by
    have last := powerCycle_saves_le
      (settledFirmware backupSource (.boot .powerUp)).system .headerMissing
    have count := @settledFirmware_saves backupSource (.boot .powerUp)
    omega
  have start : restoringFirmware backupSource (.boot .powerUp) =
      firmwareStep (fun _ => int32Min) (parseExport backupSource) (.boot (.boot .powerUp))
        (.connect (restoreAnswers backupSource)) := by rw [restoringFirmware, restoreStep]
  have whole := @restore_boots cJsonPrint (fun _ => int32Min) (parseExport backupSource) .powerUp
    rfl [] (.boot .powerUp) started [] (.boot (.boot .powerUp)) (Machine.run_nil _ _).symm rfl
    backupSource ready backupSource_valid (backupText backupSource) (backup_replied fits) present
    (fun _ shown => Option.some.inj shown ▸ parseExport_printed backupSource)
    (restoreAnswers backupSource) (restore_sent fits)
    (restoringFirmware backupSource (.boot .powerUp))
    (restoredFirmware backupSource (.boot .powerUp)) start restoreTurns
    (by rw [restoredFirmware, restoreStep]) countP_restoreTurns lone room
    ((List.replicate 5 .eepromTask).map .call) (settledFirmware backupSource (.boot .powerUp))
    (by rw [settledFirmware, settlingActions, restoreStep]) blocked empty []
    (settledFirmware backupSource (.boot .powerUp)) (Machine.run_nil _ _).symm .headerMissing few
    kept
  exact whole.mpr agrees

end ConfigWp
