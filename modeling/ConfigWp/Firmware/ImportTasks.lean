import ConfigWp.Application.ImportPlan
import ConfigWp.Application.PowerCycles
import ConfigWp.Drivers.UartSim

/-! The tasks that import documents, `ext_task` and `uart_sim_task`, among the others.
Their imports are not one step: each getter and each setter is, and the other tasks go on
in between. -/

set_option autoImplicit false

namespace ConfigWp

/-! The tasks. -/

inductive Importer where
  | extComms
  | uartSim
  deriving DecidableEq

/-- The producer that an importer is to the request queue. -/
def Importer.task : Importer → Nat
  | .extComms => 0
  | .uartSim => 1

/-- Where an importer stands: at its queue or socket, before the getter of the next record
of its document, or with a record that was read, before the setter. -/
inductive ImporterPoint where
  | waiting
  | reading (plan : List ImportUpdate)
  | storing (update : ImportUpdate) (record : update.key.domain.Record)
      (plan : List ImportUpdate)

structure Firmware where
  system : EepromSystem
  submissions : List (List UInt8)
  point : Importer → ImporterPoint

def Firmware.boot (system : EepromSystem) : Firmware := ⟨system, [], fun _ => .waiting⟩

abbrev Firmware.cache (firmware : Firmware) : ConfigCache := firmware.system.manager.cache

/-- A step of a task that imports nothing, a document that is handed over, or the next
step of an importer. -/
inductive FirmwareAction where
  | call (action : SystemAction)
  | submit (json : Option (List UInt8))
  | connect (answers : List Recv)
  | importer (importer : Importer)

def extQueueDepth : Nat := 4

/-- `external_comms_submit`, with the text instead of the pointer to it. -/
def externalCommsSubmit (firmware : Firmware) (json : Option (List UInt8)) : Bool × Firmware :=
  match json with
  | none => (false, firmware)
  | some text =>
      if text.length = 0 then (false, firmware)
      else if firmware.submissions.length < extQueueDepth then
        (true, { firmware with submissions := firmware.submissions ++ [text] })
      else (false, firmware)

section Steps

variable (undefined : Rat → Int32) (parse : List UInt8 → Option Json)

/-- `config_import_json` up to its first getter; an import that fails commits nothing. -/
def beginImport (text : List UInt8) : ImporterPoint :=
  match parse text with
  | some (.object members) => .reading (importPlan members)
  | _ => .waiting

def Firmware.move (firmware : Firmware) (importer : Importer) (point : ImporterPoint) : Firmware :=
  { firmware with point := Function.update firmware.point importer point }

/-- A connection of `uart_sim_task`; the commands that import nothing change nothing. -/
def uartSimAccept (firmware : Firmware) (answers : List Recv) : Firmware :=
  match firmware.point .uartSim with
  | .waiting =>
      match uartSimDispatch (uartSimReceive [] answers) with
      | some (.setConfig payload) =>
          if payload = [] then firmware else firmware.move .uartSim (beginImport parse payload)
      | _ => firmware
  | _ => firmware

/-- The receive of `ext_task`. -/
def extReceive (firmware : Firmware) : Firmware :=
  match firmware.submissions with
  | [] => firmware
  | text :: submissions =>
      { firmware with submissions }.move .extComms
        (if text.length = 0 then .waiting else beginImport parse text)

/-- The next step of an importer: the getter of a record, or the patch and the setter, or,
behind the last record, `QueueConfigCommit`. -/
def importerStep (firmware : Firmware) (importer : Importer) : Firmware :=
  match firmware.point importer with
  | .waiting =>
      match importer with
      | .extComms => extReceive parse firmware
      | .uartSim => firmware
  | .reading [] =>
      { firmware with system := (queueConfigCommit firmware.system importer.task).2 }.move
        importer .waiting
  | .reading (update :: plan) =>
      match configGetRecord update.key.domain firmware.system.manager
          (UInt8.ofNat update.key.index) with
      | .error _ => firmware.move importer (.reading plan)
      | .ok record => firmware.move importer (.storing update record plan)
  | .storing update record plan =>
      match patchRecord undefined update.key.domain update.item record with
      | none => firmware.move importer (.reading plan)
      | some record =>
          let done := firmware.system.setStep (some importer.task) update.key.domain
            (UInt8.ofNat update.key.index) (some record)
          { firmware with system := done.2 }.move importer (.reading plan)

def firmwareStep (firmware : Firmware) : FirmwareAction → Firmware
  | .call action => { firmware with system := systemStep firmware.system action }
  | .submit json => (externalCommsSubmit firmware json).2
  | .connect answers => uartSimAccept parse firmware answers
  | .importer importer => importerStep undefined parse firmware importer

/-! The firmware as producers and `eeprom_task`. -/

variable {undefined parse} {firmware : Firmware}

theorem requestIndex_key (key : RecordKey) :
    requestIndex key.domain (UInt8.ofNat key.index) = UInt8.ofNat key.index := by
  obtain ⟨domain, index⟩ := key
  cases domain with
  | system =>
      have first : index.val = 0 := Nat.lt_one_iff.mp index.isLt
      dsimp only at first ⊢
      rw [first]
      rfl
  | _ => rfl

/-! The steps of an importer. -/

variable {importer : Importer}

theorem importerStep_commit (point : firmware.point importer = .reading []) :
    importerStep undefined parse firmware importer =
      { firmware with system := (queueConfigCommit firmware.system importer.task).2 }.move
        importer .waiting := by
  unfold importerStep
  rw [point]

theorem importerStep_get {update : ImportUpdate} {plan : List ImportUpdate}
    (ready : firmware.system.manager.initialised = true)
    (point : firmware.point importer = .reading (update :: plan)) :
    importerStep undefined parse firmware importer =
      firmware.move importer (.storing update (firmware.cache.get update.key) plan) := by
  have read : configGetRecord update.key.domain firmware.system.manager
      (UInt8.ofNat update.key.index) = .ok (firmware.cache.get update.key) :=
    configGetRecord_channel ready update.key.index
  unfold importerStep
  rw [point]
  dsimp only
  rw [read]

theorem storeEntry_channel (task : Option Nat) {domain : Domain} (index : Fin domain.count)
    (record : domain.Record) :
    storeEntry task domain (UInt8.ofNat index) (some record) =
      [.store ⟨task, ⟨domain, index⟩, record⟩] := by
  have kept := channel_toNat index
  have inside : (UInt8.ofNat index).toNat < domain.count := kept.trans_lt index.isLt
  have placed : ∀ place : Fin domain.count, place = index →
      ([.store ⟨task, ⟨domain, place⟩, record⟩] : ConfigLog) =
        [.store ⟨task, ⟨domain, index⟩, record⟩] := by
    rintro _ rfl
    rfl
  rw [storeEntry, dif_pos inside]
  exact placed _ (Fin.ext kept)

/-- What the setter of an update stores. -/
def storeUpdate (firmware : Firmware) (importer : Importer) (key : RecordKey)
    (record : key.domain.Record) : EepromSystem :=
  { firmware.system with
    manager := firmware.system.manager.store key record
    log := firmware.system.log ++ [WriteBehind.Entry.store ⟨some importer.task, key, record⟩] }

/-- The setter stores the patch of what was read, or is not called or refuses. -/
theorem importerStep_set {update : ImportUpdate} {record : update.key.domain.Record}
    {plan : List ImportUpdate} (ready : firmware.system.manager.initialised = true)
    (point : firmware.point importer = .storing update record plan) :
    (storedRecord undefined update.key.domain update.item record = none ∧
      importerStep undefined parse firmware importer =
        firmware.move importer (.reading plan)) ∨
    ∃ new, storedRecord undefined update.key.domain update.item record = some new ∧
      importerStep undefined parse firmware importer =
        { firmware with system := storeUpdate firmware importer update.key new }.move importer
          (.reading plan) := by
  unfold importerStep
  rw [point, storedRecord]
  dsimp only
  cases patchRecord undefined update.key.domain update.item record with
  | none => exact .inl ⟨rfl, rfl⟩
  | some new =>
      have stored := configSetRecord_channel ready update.key.index new
      dsimp only
      rw [EepromSystem.setStep, stored, Option.filter_some]
      cases validate update.key.domain new with
      | false => exact .inl ⟨rfl, rfl⟩
      | true =>
          refine .inr ⟨new, rfl, ?_⟩
          simp only [if_true, storeEntry_channel]
          rfl

/-- A step of the firmware is at most one of the request system. -/
theorem firmwareStep_call (firmware : Firmware) (action : FirmwareAction) :
    (firmwareStep undefined parse firmware action).system = firmware.system ∨
      ∃ call, (firmwareStep undefined parse firmware action).system =
        systemStep firmware.system call := by
  cases action with
  | call action => exact .inr ⟨action, rfl⟩
  | submit json =>
      left
      cases json with
      | none => rfl
      | some text =>
          rw [firmwareStep, externalCommsSubmit]
          split_ifs <;> rfl
  | connect answers =>
      left
      rw [firmwareStep, uartSimAccept]
      split
      · split
        · split_ifs <;> rfl
        · rfl
      · rfl
  | importer importer =>
      rw [firmwareStep]
      cases point : firmware.point importer with
      | waiting =>
          left
          unfold importerStep
          rw [point]
          cases importer with
          | uartSim => rfl
          | extComms =>
              dsimp only
              rw [extReceive]
              cases firmware.submissions <;> rfl
      | reading plan =>
          cases plan with
          | nil =>
              rw [importerStep_commit point]
              exact .inr ⟨.queueCommit importer.task, rfl⟩
          | cons update plan =>
              left
              unfold importerStep
              rw [point]
              dsimp only
              cases configGetRecord update.key.domain firmware.system.manager
                (UInt8.ofNat update.key.index) <;> rfl
      | storing update record plan =>
          unfold importerStep
          rw [point]
          dsimp only
          cases patchRecord undefined update.key.domain update.item record with
          | none => exact .inl rfl
          | some record =>
              refine .inr ⟨.set importer.task update.key.domain (UInt8.ofNat update.key.index)
                (some record), ?_⟩
              rw [systemStep, requestIndex_key]
              rfl

theorem firmwareStep_system (firmware : Firmware) (action : FirmwareAction) :
    ∃ calls, (firmwareStep undefined parse firmware action).system =
      Machine.run systemStep firmware.system calls := by
  rcases @firmwareStep_call undefined parse firmware action with still | ⟨call, stepped⟩
  · exact ⟨[], still⟩
  · exact ⟨[call], stepped⟩

theorem firmware_run_system (firmware : Firmware) (actions : List FirmwareAction) :
    ∃ calls, (Machine.run (firmwareStep undefined parse) firmware actions).system =
      Machine.run systemStep firmware.system calls := by
  induction actions generalizing firmware with
  | nil => exact ⟨[], rfl⟩
  | cons action actions ih =>
      obtain ⟨first, stepped⟩ := @firmwareStep_system undefined parse firmware action
      obtain ⟨rest, reached⟩ := ih (firmwareStep undefined parse firmware action)
      refine ⟨first ++ rest, ?_⟩
      rw [Machine.run_append, ← stepped]
      exact reached

theorem firmware_run_calls (firmware : Firmware) (actions : List SystemAction) :
    Machine.run (firmwareStep undefined parse) firmware (actions.map .call) =
      { firmware with system := Machine.run systemStep firmware.system actions } := by
  induction actions generalizing firmware with
  | nil => rfl
  | cons action actions ih => exact ih (firmwareStep undefined parse firmware (.call action))

/-! Frames. -/

theorem systemStep_initialised (system : EepromSystem) (action : SystemAction) :
    (systemStep system action).manager.initialised = system.manager.initialised := by
  have effect := systemStep_effect system action
  generalize systemStep system action = next at effect ⊢
  cases effect with
  | called task domain idx input point =>
      obtain ⟨cache, log, frame⟩ := setStep_frame system task domain idx input
      rw [frame]
  | _ => rfl

theorem systemStep_valid (system : EepromSystem) (action : SystemAction)
    (valid : system.manager.cache.Valid) : (systemStep system action).manager.cache.Valid := by
  have effect := systemStep_effect system action
  generalize systemStep system action = next at effect ⊢
  cases effect with
  | called task domain idx input point =>
      have stored := configSetRecord_effect domain system.manager idx input
      rw [EepromSystem.setStep]
      generalize configSetRecord domain system.manager idx input = outcome at stored ⊢
      cases stored with
      | refused status => exact valid
      | stored key record ready accepted => exact valid.set accepted
  | _ => exact valid

theorem firmwareStep_initialised (firmware : Firmware) (action : FirmwareAction) :
    (firmwareStep undefined parse firmware action).system.manager.initialised =
      firmware.system.manager.initialised := by
  obtain ⟨calls, reached⟩ := @firmwareStep_system undefined parse firmware action
  rw [reached]
  have preserved : ∀ system action, True →
      system.manager.initialised = firmware.system.manager.initialised →
        (systemStep system action).manager.initialised = firmware.system.manager.initialised :=
    fun system action _ same => (systemStep_initialised system action).trans same
  exact @Machine.run_invariant _ _ systemStep
    (fun system => system.manager.initialised = firmware.system.manager.initialised)
    (fun _ => True) firmware.system rfl preserved calls fun _ _ => trivial

variable (undefined parse) in
theorem firmware_run_initialised (firmware : Firmware) (actions : List FirmwareAction) :
    (Machine.run (firmwareStep undefined parse) firmware actions).system.manager.initialised =
      firmware.system.manager.initialised := by
  induction actions generalizing firmware with
  | nil => rfl
  | cons action actions ih =>
      exact (ih (firmwareStep undefined parse firmware action)).trans
        (firmwareStep_initialised firmware action)

theorem move_own (point : ImporterPoint) : (firmware.move importer point).point importer = point :=
  Function.update_self _ _ _

theorem move_other {other : Importer} (apart : importer ≠ other) (point : ImporterPoint) :
    (firmware.move other point).point importer = firmware.point importer :=
  Function.update_of_ne apart _ _

/-- The step of an importer moves that importer alone. -/
theorem importerStep_other {other : Importer} (apart : importer ≠ other) :
    (importerStep undefined parse firmware other).point importer = firmware.point importer := by
  unfold importerStep
  cases firmware.point other with
  | waiting =>
      cases other with
      | uartSim => rfl
      | extComms =>
          dsimp only
          rw [extReceive]
          cases firmware.submissions with
          | nil => rfl
          | cons text rest => exact move_other apart _
  | reading plan =>
      cases plan with
      | nil => exact move_other apart _
      | cons update plan =>
          dsimp only
          cases configGetRecord update.key.domain firmware.system.manager
            (UInt8.ofNat update.key.index) <;> exact move_other apart _
  | storing update record plan =>
      dsimp only
      cases patchRecord undefined update.key.domain update.item record <;>
        exact move_other apart _

/-- Nobody but an importer moves it once it is importing. -/
theorem firmwareStep_point {action : FirmwareAction} (others : action ≠ .importer importer)
    (busy : firmware.point importer ≠ .waiting) :
    (firmwareStep undefined parse firmware action).point importer = firmware.point importer := by
  cases action with
  | call action => rfl
  | submit json =>
      cases json with
      | none => rfl
      | some text =>
          rw [firmwareStep, externalCommsSubmit]
          split_ifs <;> rfl
  | connect answers =>
      rw [firmwareStep, uartSimAccept]
      split
      · have apart : importer ≠ .uartSim := by
          rintro rfl
          exact busy ‹_›
        split
        · split_ifs
          · rfl
          · exact move_other apart _
        · rfl
      · rfl
  | importer other =>
      exact importerStep_other fun same => others (congrArg _ same.symm)

end Steps

end ConfigWp
