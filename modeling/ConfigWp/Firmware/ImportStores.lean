import ConfigWp.Application.FieldWrites
import ConfigWp.Firmware.ImportRuns

/-! What an import stores among tasks that may change the same records. Which of its
entries are stored, and the fields that an entry names, are those of the document, whatever
the others do between its getters and its setters. -/

set_option autoImplicit false

namespace ConfigWp

/-! The stores of one task. -/

def storesOf (task : Nat) (log : ConfigLog) : List StoreEvent :=
  log.filterMap fun entry =>
    match entry with
    | .store event => if event.task = some task then some event else none
    | .commit _ => none

theorem storesOf_append (task : Nat) (log more : ConfigLog) :
    storesOf task (log ++ more) = storesOf task log ++ storesOf task more :=
  List.filterMap_append

theorem storesOf_commit (task : Nat) (log : ConfigLog) (other : Nat) :
    storesOf task (log ++ [.commit other]) = storesOf task log := by
  rw [storesOf_append]
  exact List.append_nil _

theorem storesOf_own {task : Nat} (log : ConfigLog) (key : RecordKey)
    (record : key.domain.Record) :
    storesOf task (log ++ [.store ⟨some task, key, record⟩]) =
      storesOf task log ++ [⟨some task, key, record⟩] := by
  rw [storesOf_append]
  simp [storesOf]

theorem storesOf_storeEntry {task : Nat} {owner : Option Nat} (foreign : owner ≠ some task)
    (domain : Domain) (idx : UInt8) (input : Option domain.Record) :
    storesOf task (storeEntry owner domain idx input) = [] := by
  cases input with
  | none => rfl
  | some record =>
      rw [storeEntry]
      split_ifs
      · simp [storesOf, foreign]
      · rfl

theorem setStep_stores {task : Nat} {owner : Option Nat} (foreign : owner ≠ some task)
    (system : EepromSystem) (domain : Domain) (idx : UInt8) (input : Option domain.Record) :
    storesOf task (system.setStep owner domain idx input).2.log = storesOf task system.log := by
  rw [EepromSystem.setStep]
  rcases configSetRecord domain system.manager idx input with ⟨status | done, manager⟩
  · rfl
  · dsimp only
    rw [storesOf_append, storesOf_storeEntry foreign, List.append_nil]

theorem queueConfigCommit_stores (task : Nat) (system : EepromSystem) (other : Nat) :
    storesOf task (queueConfigCommit system other).2.log = storesOf task system.log := by
  rw [queueConfigCommit]
  cases xQueueSend system.queue .commit with
  | none => rfl
  | some queue => exact storesOf_commit task system.log other

theorem taskStep_stores (task : Nat) (system : EepromSystem) :
    storesOf task system.taskStep.log = storesOf task system.log := by
  rw [EepromSystem.taskStep]
  cases system.point with
  | receive => cases system.queue <;> rfl
  | process request dirty => rfl
  | apply domain idx record dirty =>
      have stored := setStep_stores (Option.some_ne_none task).symm system domain idx (some record)
      dsimp only
      generalize system.setStep none domain idx (some record) = outcome at stored ⊢
      rcases outcome with ⟨status | done, next⟩ <;> exact stored
  | drain dirty => cases system.queue <;> rfl
  | encode =>
      dsimp only
      rcases configSaveEncode system.manager with ⟨status | blobLen, manager⟩ <;> rfl
  | write blobLen => rfl

/-- A setter that a task calls. -/
def SystemAction.setsAs (task : Nat) : SystemAction → Prop
  | .set other _ _ _ => other = task
  | _ => False

theorem systemStep_stores {task : Nat} {action : SystemAction} (foreign : ¬action.setsAs task)
    (system : EepromSystem) :
    storesOf task (systemStep system action).log = storesOf task system.log := by
  cases action with
  | set other domain idx input =>
      exact setStep_stores (fun same => foreign (Option.some.inj same)) system domain _ input
  | queueChange other type item param value =>
      rw [systemStep, queueConfigChange]
      split_ifs
      · rfl
      · cases xQueueSend system.queue (.field type item param value) <;> rfl
  | queueCommit other => exact queueConfigCommit_stores task system other
  | eepromTask => exact taskStep_stores task system

def FirmwareAction.setsAs (task : Nat) : FirmwareAction → Prop
  | .call action => action.setsAs task
  | _ => False

section Imports

variable {undefined : Rat → Int32} {parse : List UInt8 → Option Json} {firmware : Firmware}
  {importer : Importer}

theorem Importer.task_ne {other : Importer} (apart : importer ≠ other) :
    other.task ≠ importer.task := by
  cases importer <;> cases other <;> first | exact absurd rfl apart | decide

theorem importerStep_stores {other : Importer} (apart : importer ≠ other) :
    storesOf importer.task (importerStep undefined parse firmware other).system.log =
      storesOf importer.task firmware.system.log := by
  unfold importerStep
  cases firmware.point other with
  | waiting =>
      cases other with
      | uartSim => rfl
      | extComms =>
          dsimp only
          rw [extReceive]
          cases firmware.submissions <;> rfl
  | reading plan =>
      cases plan with
      | nil => exact queueConfigCommit_stores importer.task firmware.system other.task
      | cons update plan =>
          dsimp only
          cases configGetRecord update.key.domain firmware.system.manager
            (UInt8.ofNat update.key.index) <;> rfl
  | storing update record plan =>
      dsimp only
      cases patchRecord undefined update.key.domain update.item record with
      | none => rfl
      | some record =>
          exact setStep_stores (fun same => Importer.task_ne apart (Option.some.inj same))
            firmware.system _ _ _

/-- The other tasks add nothing to the stores of an importer. -/
theorem firmwareStep_stores {action : FirmwareAction} (others : action ≠ .importer importer)
    (foreign : ¬action.setsAs importer.task) :
    storesOf importer.task (firmwareStep undefined parse firmware action).system.log =
      storesOf importer.task firmware.system.log := by
  cases action with
  | call action => exact systemStep_stores foreign firmware.system
  | submit json =>
      cases json with
      | none => rfl
      | some text =>
          rw [firmwareStep, externalCommsSubmit]
          split_ifs <;> rfl
  | connect answers =>
      rw [firmwareStep, uartSimAccept]
      split
      · split
        · split_ifs <;> rfl
        · rfl
      · rfl
  | importer other =>
      exact importerStep_stores fun same => others (congrArg _ same.symm)

/-! The updates of a document and what their setters store. -/

variable (undefined) in
/-- An update whose setter stores: every member of its entry is left out, or reads as a
legal value. -/
def ImportUpdate.fits (update : ImportUpdate) : Bool :=
  update.key.domain.fields.all (memberFits undefined update.key.domain update.item)

variable (undefined importer) in
/-- A store of an importer with every field that an entry names as the entry has it. -/
def CarriesOut (update : ImportUpdate) (event : StoreEvent) : Prop :=
  ∃ record : update.key.domain.Record, event = ⟨some importer.task, update.key, record⟩ ∧
    ∀ field value,
      memberPatch undefined update.key.domain update.item field = some (some value) →
        fieldOf update.key.domain record field = value

/-- Whether an update stores, and the fields it names, do not depend on the record that it
patches. -/
theorem storedRecord_cases (update : ImportUpdate) {old : update.key.domain.Record}
    (valid : validate update.key.domain old = true) :
    (update.fits undefined = false ∧
      storedRecord undefined update.key.domain update.item old = none) ∨
    (update.fits undefined = true ∧
      ∃ new, storedRecord undefined update.key.domain update.item old = some new ∧
        CarriesOut undefined importer update ⟨some importer.task, update.key, new⟩) := by
  cases fit : update.fits undefined with
  | false =>
      refine .inl ⟨rfl, storedRecord_unfit fun fits => Bool.false_ne_true (fit.symm.trans ?_)⟩
      exact List.all_eq_true.mpr fun field _ => fits field
  | true =>
      obtain ⟨new, stored, fields⟩ :=
        storedRecord_fit valid (forall_field_iff.mpr (List.all_eq_true.mp fit))
      refine .inr ⟨rfl, new, stored, new, rfl, fun field value asked => ?_⟩
      rw [fields field, asked]
      rfl

/-- How far an import is, with the updates it has done. -/
inductive ImportAt (plan : List ImportUpdate) (importer : Importer) (firmware : Firmware)
    (done : List ImportUpdate) : Prop where
  | reading (rest : List ImportUpdate) (split : plan = done ++ rest)
      (here : firmware.point importer = .reading rest) :
      ImportAt plan importer firmware done
  | storing (update : ImportUpdate) (record : update.key.domain.Record)
      (rest : List ImportUpdate) (split : plan = done ++ update :: rest)
      (here : firmware.point importer = .storing update record rest)
      (sound : validate update.key.domain record = true) :
      ImportAt plan importer firmware done

/-- The importer has stored for each fitting update that it has done, and for no other. -/
structure ImportLogged (undefined : Rat → Int32) (plan : List ImportUpdate) (start : Firmware)
    (importer : Importer) (firmware : Firmware) (done : List ImportUpdate) : Prop where
  ready : firmware.system.manager.initialised = true
  valid : firmware.cache.Valid
  place : ImportAt plan importer firmware done
  stores : ∃ events,
    storesOf importer.task firmware.system.log =
      storesOf importer.task start.system.log ++ events ∧
    List.Forall₂ (CarriesOut undefined importer) (done.filter (·.fits undefined)) events

variable {plan : List ImportUpdate} {start : Firmware} {done : List ImportUpdate}

theorem firmwareStep_valid (valid : firmware.cache.Valid) (action : FirmwareAction) :
    (firmwareStep undefined parse firmware action).cache.Valid := by
  obtain ⟨calls, reached⟩ := @firmwareStep_system undefined parse firmware action
  rw [Firmware.cache, reached]
  exact @Machine.run_invariant _ _ systemStep (fun system => system.manager.cache.Valid)
    (fun _ => True) firmware.system valid (fun system action _ => systemStep_valid system action)
    calls fun _ _ => trivial

theorem ImportLogged.others (logged : ImportLogged undefined plan start importer firmware done)
    {action : FirmwareAction} (others : action ≠ .importer importer)
    (foreign : ¬action.setsAs importer.task) :
    ImportLogged undefined plan start importer (firmwareStep undefined parse firmware action)
      done := by
  obtain ⟨ready, valid, place, stores⟩ := logged
  refine ⟨(firmwareStep_initialised firmware action).trans ready,
    firmwareStep_valid valid action, ?_, ?_⟩
  · cases place with
    | reading rest split here =>
        have kept := @firmwareStep_point undefined parse firmware importer action others
          (by rw [here]; simp)
        exact .reading rest split (kept.trans here)
    | storing update record rest split here sound =>
        have kept := @firmwareStep_point undefined parse firmware importer action others
          (by rw [here]; simp)
        exact .storing update record rest split (kept.trans here) sound
  · rw [firmwareStep_stores others foreign]
    exact stores

/-- A step of the importer that is not its commit. -/
theorem ImportLogged.own (logged : ImportLogged undefined plan start importer firmware done)
    (going : firmware.point importer ≠ .reading []) :
    ∃ more, ImportLogged undefined plan start importer
      (firmwareStep undefined parse firmware (.importer importer)) more := by
  have ready := (@firmwareStep_initialised undefined parse firmware (.importer importer)).trans
    logged.ready
  have valid := @firmwareStep_valid undefined parse firmware logged.valid (.importer importer)
  obtain ⟨events, grown, carried⟩ := logged.stores
  rw [firmwareStep] at ready valid ⊢
  cases logged.place with
  | reading rest split here =>
      cases rest with
      | nil => exact absurd here going
      | cons update rest =>
          rw [importerStep_get logged.ready here] at ready valid ⊢
          exact ⟨done, ready, valid,
            .storing update _ rest split (move_own _) (logged.valid update.key),
            events, grown, carried⟩
  | storing update record rest split here sound =>
      have whole : plan = (done ++ [update]) ++ rest := by rw [split, List.append_assoc]; rfl
      rcases @importerStep_set undefined parse firmware importer update record rest logged.ready
        here with ⟨unfit, stepped⟩ | ⟨new, stored, stepped⟩
      · rw [stepped] at ready valid ⊢
        refine ⟨done ++ [update], ready, valid, .reading rest whole (move_own _), events, grown, ?_⟩
        rcases @storedRecord_cases undefined importer update record sound with
          ⟨refused, -⟩ | ⟨-, new, stored, -⟩
        · rw [List.filter_append, List.filter_cons_of_neg (by simp [refused]), List.filter_nil,
            List.append_nil]
          exact carried
        · rw [unfit] at stored
          cases stored
      · rw [stepped] at ready valid ⊢
        rcases @storedRecord_cases undefined importer update record sound with
          ⟨-, unfit⟩ | ⟨accepted, made, fitted, carries⟩
        · rw [unfit] at stored
          cases stored
        · obtain rfl := Option.some.inj (stored.symm.trans fitted)
          refine ⟨done ++ [update], ready, valid, .reading rest whole (move_own _),
            events ++ [⟨some importer.task, update.key, new⟩], ?_, ?_⟩
          · have logs : storesOf importer.task (storeUpdate firmware importer update.key new).log =
                storesOf importer.task firmware.system.log ++
                  [⟨some importer.task, update.key, new⟩] := storesOf_own _ _ _
            rw [← List.append_assoc, ← grown]
            exact logs
          · rw [List.filter_append, List.filter_cons_of_pos (by simp [accepted]), List.filter_nil]
            exact List.rel_append carried (.cons carries .nil)

theorem ImportLogged.run (logged : ImportLogged undefined plan start importer firmware done)
    {during : List FirmwareAction} (foreign : ∀ action ∈ during, ¬action.setsAs importer.task)
    (going : ∀ earlier later, during = earlier ++ .importer importer :: later →
      (Machine.run (firmwareStep undefined parse) firmware earlier).point importer ≠
        .reading []) :
    ∃ more, ImportLogged undefined plan start importer
      (Machine.run (firmwareStep undefined parse) firmware during) more := by
  induction during generalizing firmware done with
  | nil => exact ⟨done, logged⟩
  | cons action during ih =>
      obtain ⟨first, rest⟩ := List.forall_mem_cons.mp foreign
      have onward : ∀ earlier later, during = earlier ++ .importer importer :: later →
          (Machine.run (firmwareStep undefined parse)
            (firmwareStep undefined parse firmware action) earlier).point importer ≠
              .reading [] :=
        fun earlier later split => going (action :: earlier) later (by rw [split]; rfl)
      by_cases own : action = .importer importer
      · subst own
        obtain ⟨more, next⟩ := @ImportLogged.own undefined parse _ _ _ _ _ logged
          (going [] during rfl)
        exact ih next rest onward
      · exact ih (logged.others own first) rest onward

end Imports

/-! The document with one record, and a store of another task to that record. -/

end ConfigWp
