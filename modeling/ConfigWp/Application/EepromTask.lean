import ConfigWp.Application.FieldRequests
import ConfigWp.Application.ImportEntries
import ConfigWp.Library.WriteBehind

/-! The request queue and `eeprom_task`, step by step. Each getter and setter is one
step, and a save is two, the encoding under the mutex and the slot write outside it;
the other tasks may run between any two steps. The system logs the stores and the
commits that it accepts. -/

set_option autoImplicit false

namespace ConfigWp

open WriteBehind

/-! The two halves of `config_save`. -/

theorem length_encoded (m : Manager) :
    (encodeCacheLocked m.cache m.unknown m.blobBuf.bytes).2.length = slotPayloadMaxBytes :=
  (encodeCacheLocked_length _ _ _).trans m.blobBuf.size_eq

/-- Up to the release of the mutex. -/
def configSaveEncode (m : Manager) : Except ConfigStatus Nat × Manager :=
  if !m.initialised then (.error .errNotInitialised, m)
  else
    let encoded := encodeCacheLocked m.cache m.unknown m.blobBuf.bytes
    (encoded.1, { m with blobBuf := ⟨encoded.2, length_encoded m⟩ })

def configSaveWrite (faults : SlotWriteFaults) (storage : Storage) (m : Manager) (blobLen : Nat) :
    Except ConfigStatus Unit × Storage :=
  match slotWrite faults storage (m.blobBuf.bytes.take blobLen) with
  | (.ok (), storage) => (.ok (), storage)
  | (.error _, storage) => (.error .errStorage, storage)

theorem configSave_eq_halves (faults : SlotWriteFaults) (storage : Storage) (m : Manager) :
    configSave faults storage m =
      match configSaveEncode m with
      | (.error status, m) => (.error status, storage, m)
      | (.ok blobLen, m) =>
          ((configSaveWrite faults storage m blobLen).1,
            (configSaveWrite faults storage m blobLen).2, m) := by
  rw [configSave, configSaveEncode]
  split_ifs
  · rfl
  · dsimp only
    cases (encodeCacheLocked m.cache m.unknown m.blobBuf.bytes).1 with
    | error status => rfl
    | ok blobLen =>
        dsimp only
        rw [configSaveWrite]
        rcases slotWrite faults storage _ with ⟨status | done, written⟩ <;> rfl

/-! Stores and the log. -/

/-- A store that was accepted, by a producer task or by `eeprom_task` itself. -/
structure StoreEvent where
  task : Option Nat
  key : RecordKey
  record : key.domain.Record
  deriving DecidableEq

abbrev ConfigLog : Type := List (Entry StoreEvent Nat)

/-- The log entry of an accepted setter. -/
def storeEntry (task : Option Nat) (domain : Domain) (idx : UInt8) (input : Option domain.Record) :
    ConfigLog :=
  match input with
  | none => []
  | some record =>
      if inside : idx.toNat < domain.count then [.store ⟨task, ⟨domain, ⟨_, inside⟩⟩, record⟩]
      else []

/-! The queue. -/

def eepromQueueDepth : Nat := 16

/-- `xQueueSend`; a sender that waited in vain gives up. -/
def xQueueSend (queue : List EepromRequest) (request : EepromRequest) :
    Option (List EepromRequest) :=
  if queue.length < eepromQueueDepth then some (queue ++ [request]) else none

/-! The system. -/

/-- Where `eeprom_task` stands: at the outer receive, with a request to process, with a
changed record to set, at the inner receive, and at the two halves of the save. -/
inductive TaskPoint where
  | receive
  | process (request : EepromRequest) (dirty : Bool)
  | apply (domain : Domain) (idx : UInt8) (record : domain.Record) (dirty : Bool)
  | drain (dirty : Bool)
  | encode
  | write (blobLen : Nat)
  deriving DecidableEq

structure EepromSystem where
  storage : Storage
  manager : Manager
  queue : List EepromRequest
  point : TaskPoint
  log : ConfigLog
  saves : Nat

namespace EepromSystem

/-- The processing of a request up to the setter of a field. -/
def processStep (m : Manager) (request : EepromRequest) (dirty : Bool) : TaskPoint :=
  match request with
  | .commit => .drain true
  | .field type item param value =>
      match eepromType? type with
      | none => .drain dirty
      | some domain =>
          match configGetRecord domain m (requestIndex domain item) with
          | .error _ => .drain dirty
          | .ok record =>
              match changeRecord domain value param record with
              | none => .drain dirty
              | some record => .apply domain (requestIndex domain item) record dirty

/-- A setter call, which logs what it stores. -/
def setStep (system : EepromSystem) (task : Option Nat) (domain : Domain) (idx : UInt8)
    (input : Option domain.Record) : Except ConfigStatus Unit × EepromSystem :=
  match configSetRecord domain system.manager idx input with
  | (.error status, manager) => (.error status, { system with manager })
  | (.ok (), manager) =>
      (.ok (), { system with manager, log := system.log ++ storeEntry task domain idx input })

/-- The next step of `eeprom_task`; at the outer receive it blocks on an empty queue. -/
def taskStep (system : EepromSystem) : EepromSystem :=
  match system.point with
  | .receive =>
      match system.queue with
      | [] => system
      | request :: queue => { system with queue, point := .process request false }
  | .process request dirty =>
      { system with point := processStep system.manager request dirty }
  | .apply domain idx record dirty =>
      match system.setStep none domain idx (some record) with
      | (.error _, system) => { system with point := .drain dirty }
      | (.ok (), system) => { system with point := .drain true }
  | .drain dirty =>
      match system.queue with
      | [] => { system with point := if dirty then .encode else .receive }
      | request :: queue => { system with queue, point := .process request dirty }
  | .encode =>
      match configSaveEncode system.manager with
      | (.error _, manager) => { system with manager, point := .receive }
      | (.ok blobLen, manager) => { system with manager, point := .write blobLen }
  | .write blobLen =>
      { system with
        storage := (configSaveWrite .none system.storage system.manager blobLen).2
        point := .receive
        saves := system.saves + 1 }

end EepromSystem

/-- A step of a producer task, or of `eeprom_task`. -/
inductive SystemAction where
  | set (task : Nat) (domain : Domain) (idx : UInt8) (input : Option domain.Record)
  | queueChange (task : Nat) (type : UInt32) (item : UInt8) (param : UInt16) (value : EepromValue)
  | queueCommit (task : Nat)
  | eepromTask

def queueConfigChange (system : EepromSystem) (type : UInt32) (item : UInt8) (param : UInt16)
    (value : EepromValue) : Bool × EepromSystem :=
  if type.toNat ≥ Domain.all.length then (false, system)
  else
    match xQueueSend system.queue (.field type item param value) with
    | none => (false, system)
    | some queue => (true, { system with queue })

/-- `QueueConfigCommit` by a task; one that returns true is logged. -/
def queueConfigCommit (system : EepromSystem) (task : Nat) : Bool × EepromSystem :=
  match xQueueSend system.queue .commit with
  | none => (false, system)
  | some queue => (true, { system with queue, log := system.log ++ [.commit task] })

def systemStep (system : EepromSystem) : SystemAction → EepromSystem
  | .set task domain idx input =>
      (system.setStep (some task) domain (requestIndex domain idx) input).2
  | .queueChange _ type item param value => (queueConfigChange system type item param value).2
  | .queueCommit task => (queueConfigCommit system task).2
  | .eepromTask => system.taskStep

/-- `eeprom_manager_init` over erased storage. -/
def EepromSystem.boot (m : Manager) : EepromSystem where
  storage := storageInit
  manager := (configInit true .none storageInit m).2
  queue := []
  point := .receive
  log := []
  saves := 0

/-! The steps against the calls of the source. -/

theorem configSet_eq (m : Manager) (domain : Domain) (idx : UInt8) (input : Option domain.Record) :
    configSet m domain idx input = configSetRecord domain m (requestIndex domain idx) input := by
  cases domain with
  | system => exact configSetSystem_eq m input
  | _ => rfl

theorem processStep_cases (m : Manager) (request : EepromRequest) (dirty : Bool) :
    (request = .commit ∧ EepromSystem.processStep m request dirty = .drain true) ∨
      (request ≠ .commit ∧
        (EepromSystem.processStep m request dirty = .drain dirty ∨
          ∃ domain idx record,
            EepromSystem.processStep m request dirty = .apply domain idx record dirty)) := by
  cases request with
  | commit => exact .inl ⟨rfl, rfl⟩
  | field type item param value =>
      refine .inr ⟨EepromRequest.noConfusion, ?_⟩
      rw [EepromSystem.processStep]
      split
      · exact .inl rfl
      · split
        · exact .inl rfl
        · split
          · exact .inl rfl
          · exact .inr ⟨_, _, _, rfl⟩

/-- Processing a request and setting the record it changed is `process_request`. -/
theorem processRequest_eq_steps (m : Manager) (request : EepromRequest) (dirty : Bool) :
    (dirty || (processRequest m request).1, (processRequest m request).2) =
      match EepromSystem.processStep m request dirty with
      | .drain dirty => (dirty, m)
      | .apply domain idx record dirty =>
          match configSetRecord domain m idx (some record) with
          | (.error _, m) => (dirty, m)
          | (.ok (), m) => (true, m)
      | _ => (dirty, m) := by
  cases request with
  | commit => simp [processRequest, EepromSystem.processStep]
  | field type item param value =>
      rw [processRequest, applyField_eq, EepromSystem.processStep]
      cases eepromType? type with
      | none => simp
      | some domain =>
          dsimp only
          rw [applyRecord]
          cases configGetRecord domain m (requestIndex domain item) with
          | error status => simp
          | ok record =>
              dsimp only
              cases changeRecord domain value param record with
              | none => simp
              | some new =>
                  dsimp only
                  rcases configSetRecord domain m (requestIndex domain item) (some new) with
                    ⟨status | done, next⟩ <;> simp

end ConfigWp
