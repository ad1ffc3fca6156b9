import ConfigWp.Application.PowerCycles
import ConfigWp.Library.Locking

/-! The tasks under the mutex of `config_lock`. A getter, a setter and the encoding of a
save each copy between the cache and memory of their task, in as many pieces as the
compiler makes of them, and other tasks run between any two pieces. What comes of it is
what comes of the calls made one at a time, in the order in which they took the mutex. -/

set_option autoImplicit false

namespace ConfigWp

open Locking

/-! What each task has. -/

/-- `none` is `eeprom_task`. -/
abbrev Task : Type := Option Nat

/-- What the calls of a task reach without the mutex: the slots, which only `eeprom_task`
touches, and the queue, whose operations are single steps. -/
structure Commons where
  storage : Storage
  queue : List EepromRequest

/-- `s_blob_buf` is used by `config_save` alone. -/
structure EepromLocal where
  point : TaskPoint
  blobBuf : BlobBuf

/-- What the last call of a producer task returned, with the record of a getter. -/
inductive CallResult where
  | read (domain : Domain) (result : Except ConfigStatus domain.Record)
  | stored (result : Except ConfigStatus Unit)
  | queued (accepted : Bool)
  deriving DecidableEq

def TaskLocal : Task → Type
  | none => EepromLocal
  | some _ => Option CallResult

abbrev TaskWorld : Type := World ConfigCache Commons TaskLocal

def taskResult (world : TaskWorld) (task : Nat) : Option CallResult := world.locals (some task)

/-! The sections of the producers. -/

/-- `*out = s_cache.…` -/
def readSection (task : Nat) (key : RecordKey) :
    Effect ConfigCache (TaskLocal (some task)) :=
  fun state => (state.1, some (.read key.domain (.ok (state.1.get key))))

/-- `s_cache.… = *in` -/
def storeSection (task : Nat) (key : RecordKey) (record : key.domain.Record) :
    Effect ConfigCache (TaskLocal (some task)) :=
  fun state => (state.1.set key record, some (.stored (.ok ())))

/-- A call that returns without the mutex. -/
def answerCall (task : Nat) (result : CallResult) : Effect Commons (TaskLocal (some task)) :=
  fun state => (state.1, some result)

def sendRequest (task : Nat) (request : EepromRequest) :
    Effect Commons (TaskLocal (some task)) :=
  fun state =>
    match xQueueSend state.1.queue request with
    | none => (state.1, some (.queued false))
    | some queue => ({ state.1 with queue }, some (.queued true))

/-! The sections of `eeprom_task`. -/

section Worker

variable (unknown : UnknownStore)

/-- The statics of an initialised manager. -/
def managerOf (cache : ConfigCache) (blobBuf : BlobBuf) : Manager :=
  { cache, unknown, blobBuf, initialised := true }

/-- Whether the next call of `eeprom_task` takes the mutex: the getter and the setter of a
record that is there, and `config_save`. -/
def takesLock : TaskPoint → Bool
  | .process .commit _ => false
  | .process (.field type item _ _) _ =>
      match eepromType? type with
      | none => false
      | some domain => decide ((requestIndex domain item).toNat < domain.count)
  | .apply domain idx record _ =>
      decide (idx.toNat < domain.count) && validate domain record
  | .encode => true
  | _ => false

/-- The call under the mutex. What the task does with the copy of a record before its next
call is its own affair and is counted in. -/
def taskSection : Effect ConfigCache (TaskLocal none) :=
  fun (cache, (task : EepromLocal)) =>
    let m := managerOf unknown cache task.blobBuf
    match task.point with
    | .process request dirty =>
        (cache, { task with point := EepromSystem.processStep m request dirty })
    | .apply domain idx record dirty =>
        match configSetRecord domain m idx (some record) with
        | (.error _, m) => (m.cache, { task with point := .drain dirty })
        | (.ok (), m) => (m.cache, { task with point := .drain true })
    | .encode =>
        match configSaveEncode m with
        | (.error _, m) => (m.cache, { point := .receive, blobBuf := m.blobBuf })
        | (.ok blobLen, m) => (m.cache, { point := .write blobLen, blobBuf := m.blobBuf })
    | _ => (cache, task)

/-- A step without the mutex. -/
def taskOutside : Effect Commons (TaskLocal none) :=
  fun (commons, (task : EepromLocal)) =>
    match task.point with
    | .receive =>
        match commons.queue with
        | [] => (commons, task)
        | request :: queue =>
            ({ commons with queue }, { task with point := .process request false })
    | .process request dirty =>
        (commons, { task with point := .drain (dirty || decide (request = .commit)) })
    | .apply _ _ _ dirty => (commons, { task with point := .drain dirty })
    | .drain dirty =>
        match commons.queue with
        | [] => (commons, { task with point := if dirty then .encode else .receive })
        | request :: queue =>
            ({ commons with queue }, { task with point := .process request dirty })
    | .encode => (commons, task)
    | .write blobLen =>
        ({ commons with
            storage := (slotWrite .none commons.storage (task.blobBuf.bytes.take blobLen)).2 },
          { task with point := .receive })

/-! The system under the mutex. -/

/-- How the copies of each section are carried out. -/
structure Cutting where
  read : ∀ task key, Cut (readSection task key)
  store : ∀ task key record, Cut (storeSection task key record)
  task : TaskPoint → Cut (taskSection unknown)

/-- A call of a producer, or the next one of `eeprom_task`. -/
inductive TaskCall where
  | get (task : Nat) (domain : Domain) (idx : UInt8)
  | set (task : Nat) (domain : Domain) (idx : UInt8) (input : Option domain.Record)
  | queueChange (task : Nat) (type : UInt32) (item : UInt8) (param : UInt16) (value : EepromValue)
  | queueCommit (task : Nat)
  | eepromTask

/-- A task begins a call, or does the next piece of the section it is in. -/
inductive LockedAction where
  | call (call : TaskCall)
  | advance (task : Task)

variable {unknown}

/-- The checks of a call come before the mutex. -/
def callInput (cutting : Cutting unknown) (world : TaskWorld) :
    TaskCall → Input ConfigCache Commons TaskLocal
  | .get task domain idx =>
      if inside : (requestIndex domain idx).toNat < domain.count then
        .enter (some task) (cutting.read task ⟨domain, ⟨_, inside⟩⟩).pieces
      else .outside (some task) (answerCall task (.read domain (.error .errIndex)))
  | .set task domain idx input =>
      match input with
      | none => .outside (some task) (answerCall task (.stored (.error .errInvalid)))
      | some record =>
          if inside : (requestIndex domain idx).toNat < domain.count then
            if validate domain record then
              .enter (some task) (cutting.store task ⟨domain, ⟨_, inside⟩⟩ record).pieces
            else .outside (some task) (answerCall task (.stored (.error .errInvalid)))
          else .outside (some task) (answerCall task (.stored (.error .errIndex)))
  | .queueChange task type item param value =>
      if type.toNat ≥ Domain.all.length then .outside (some task) (answerCall task (.queued false))
      else .outside (some task) (sendRequest task (.field type item param value))
  | .queueCommit task => .outside (some task) (sendRequest task .commit)
  | .eepromTask =>
      if takesLock (world.locals none : EepromLocal).point then
        .enter none (cutting.task (world.locals none : EepromLocal).point).pieces
      else .outside none taskOutside

def lockedStep (cutting : Cutting unknown) (locked : Locked ConfigCache Commons TaskLocal) :
    LockedAction → Locked ConfigCache Commons TaskLocal
  | .call call => locked.step (callInput cutting locked.world call)
  | .advance task => locked.step (.advance task)

/-! The calls one at a time. -/

structure TaskSystem where
  system : EepromSystem
  results : Nat → Option CallResult

def taskCall (state : TaskSystem) : TaskCall → TaskSystem
  | .get task domain idx =>
      let record := configGetRecord domain state.system.manager (requestIndex domain idx)
      { state with results := Function.update state.results task (some (.read domain record)) }
  | .set task domain idx input =>
      let done := state.system.setStep (some task) domain (requestIndex domain idx) input
      { system := done.2
        results := Function.update state.results task (some (.stored done.1)) }
  | .queueChange task type item param value =>
      let done := queueConfigChange state.system type item param value
      { system := done.2
        results := Function.update state.results task (some (.queued done.1)) }
  | .queueCommit task =>
      let done := queueConfigCommit state.system task
      { system := done.2
        results := Function.update state.results task (some (.queued done.1)) }
  | .eepromTask => { state with system := state.system.taskStep }

/-- The world has what the system has. -/
structure Follows (unknown : UnknownStore) (world : TaskWorld) (state : TaskSystem) : Prop where
  manager : state.system.manager =
    managerOf unknown world.shared (world.locals none : EepromLocal).blobBuf
  storage : state.system.storage = world.common.storage
  queue : state.system.queue = world.common.queue
  point : state.system.point = (world.locals none : EepromLocal).point
  results : ∀ task, taskResult world task = state.results task

variable {world : TaskWorld} {state : TaskSystem}

/-- A call of a producer that leaves `eeprom_task` where it is. -/
theorem Follows.answered (follows : Follows unknown world state) (task : Nat)
    (result : CallResult) {shared : ConfigCache} {common : Commons} {system : EepromSystem}
    (manager : system.manager =
      managerOf unknown shared (world.locals none : EepromLocal).blobBuf)
    (storage : system.storage = common.storage) (queue : system.queue = common.queue)
    (point : system.point = state.system.point) :
    Follows unknown
      { shared, common, locals := Function.update world.locals (some task) (some result) }
      { system, results := Function.update state.results task (some result) } where
  manager := manager
  storage := storage
  queue := queue
  point := point.trans follows.point
  results other := by
    by_cases same : other = task
    · subst same
      exact (Function.update_self (some other) _ world.locals).trans
        (Function.update_self other _ state.results).symm
    · exact (Function.update_of_ne (fun clash => same (Option.some.inj clash)) _ _).trans
        ((follows.results other).trans (Function.update_of_ne same _ _).symm)

/-- A request that is queued, with whatever the log gets, or refused. -/
theorem Follows.sent (follows : Follows unknown world state) (task : Nat)
    (request : EepromRequest) (log : ConfigLog) {done : Bool × EepromSystem}
    (sends : done =
      match xQueueSend state.system.queue request with
      | none => (false, state.system)
      | some queue => (true, { state.system with queue, log })) :
    Follows unknown (world.outside (some task) (sendRequest task request))
      { system := done.2
        results := Function.update state.results task (some (.queued done.1)) } := by
  rw [sends, follows.queue, World.outside, sendRequest]
  dsimp only
  cases xQueueSend world.common.queue request with
  | none => exact follows.answered task _ follows.manager follows.storage follows.queue rfl
  | some queue => exact follows.answered task _ follows.manager follows.storage rfl rfl

/-- A producer call as one step. -/
theorem Follows.producer (follows : Follows unknown world state) (cutting : Cutting unknown)
    {call : TaskCall} (produces : call ≠ .eepromTask)
    {atomic : Atomic ConfigCache Commons TaskLocal}
    (counted : (callInput cutting world call).atomic = some atomic) :
    Follows unknown (atomicStep world atomic) (taskCall state call) := by
  have ready : state.system.manager.initialised = true := by rw [follows.manager]; rfl
  have cached : state.system.manager.cache = world.shared := by rw [follows.manager]; rfl
  cases call with
  | get task domain idx =>
      rw [callInput] at counted
      split_ifs at counted with inside
      · obtain rfl := Option.some.inj counted
        rw [(cutting.read task ⟨domain, ⟨_, inside⟩⟩).whole, taskCall,
          configGetRecord_ready ready inside, cached]
        exact follows.answered task _ follows.manager follows.storage follows.queue rfl
      · obtain rfl := Option.some.inj counted
        rw [taskCall, configGetRecord_outside ready inside]
        exact follows.answered task _ follows.manager follows.storage follows.queue rfl
  | set task domain idx input =>
      cases input with
      | none =>
          obtain rfl := Option.some.inj counted
          simp only [taskCall, EepromSystem.setStep, configSetRecord, ready, Bool.not_true,
            Bool.false_eq_true, if_false]
          exact follows.answered task _ follows.manager follows.storage follows.queue rfl
      | some record =>
          rw [callInput] at counted
          split_ifs at counted with inside accepted
          · obtain rfl := Option.some.inj counted
            rw [(cutting.store task ⟨domain, ⟨_, inside⟩⟩ record).whole]
            simp only [taskCall, EepromSystem.setStep, configSetRecord_ready ready inside, accepted,
              if_true]
            refine follows.answered task _ ?_ follows.storage follows.queue rfl
            rw [follows.manager]
            rfl
          · obtain rfl := Option.some.inj counted
            simp only [taskCall, EepromSystem.setStep, configSetRecord_ready ready inside,
              if_neg accepted]
            exact follows.answered task _ follows.manager follows.storage follows.queue rfl
          · obtain rfl := Option.some.inj counted
            simp only [taskCall, EepromSystem.setStep, configSetRecord, ready, Bool.not_true,
              Bool.false_eq_true, if_false, dif_neg inside]
            exact follows.answered task _ follows.manager follows.storage follows.queue rfl
  | queueChange task type item param value =>
      rw [callInput] at counted
      rw [taskCall, queueConfigChange]
      split_ifs at counted ⊢ with unlisted
      · obtain rfl := Option.some.inj counted
        exact follows.answered task _ follows.manager follows.storage follows.queue rfl
      · obtain rfl := Option.some.inj counted
        exact follows.sent task (.field type item param value) state.system.log rfl
  | queueCommit task =>
      obtain rfl := Option.some.inj counted
      rw [taskCall, queueConfigCommit]
      exact follows.sent task .commit (state.system.log ++ [.commit task]) rfl
  | eepromTask => exact absurd rfl produces

/-- A step of `eeprom_task` leaves the producers what they have. -/
theorem Follows.worked (follows : Follows unknown world state) {shared : ConfigCache}
    {common : Commons} (task : EepromLocal) {system : EepromSystem}
    (manager : system.manager = managerOf unknown shared task.blobBuf)
    (storage : system.storage = common.storage) (queue : system.queue = common.queue)
    (point : system.point = task.point) :
    Follows unknown
      { shared, common, locals := Function.update world.locals none task }
      { state with system } where
  manager := by
    rw [manager]
    exact congrArg (managerOf unknown shared ·.blobBuf)
      (Function.update_self none _ world.locals).symm
  storage := storage
  queue := queue
  point := point.trans (congrArg EepromLocal.point (Function.update_self none _ world.locals).symm)
  results other :=
    (Function.update_of_ne (Option.some_ne_none other) task world.locals).trans
      (follows.results other)

theorem configSaveEncode_statics (unknown : UnknownStore) (cache : ConfigCache)
    (blobBuf : BlobBuf) :
    (configSaveEncode (managerOf unknown cache blobBuf)).2 =
      managerOf unknown (configSaveEncode (managerOf unknown cache blobBuf)).2.cache
        (configSaveEncode (managerOf unknown cache blobBuf)).2.blobBuf := by
  rw [configSaveEncode, if_neg (by simp [managerOf])]
  rfl

/-- A request that reads no record stores none. -/
theorem processStep_skips {request : EepromRequest} {dirty : Bool}
    (skips : takesLock (.process request dirty) = false) (m : Manager) :
    EepromSystem.processStep m request dirty = .drain (dirty || decide (request = .commit)) := by
  cases request with
  | commit => simp [EepromSystem.processStep]
  | field type item param value =>
      rw [takesLock] at skips
      rw [EepromSystem.processStep]
      cases listed : eepromType? type with
      | none => simp
      | some domain =>
          rw [listed] at skips
          have outside := of_decide_eq_false skips
          have refused : ∃ status, configGetRecord domain m (requestIndex domain item) =
              .error status := by
            rw [configGetRecord]
            split_ifs
            · exact ⟨_, rfl⟩
            · exact ⟨_, rfl⟩
          obtain ⟨status, refused⟩ := refused
          simp [refused]

theorem Follows.taskSection (follows : Follows unknown world state)
    (takes : takesLock (world.locals none : EepromLocal).point = true) :
    Follows unknown (world.inside none (taskSection unknown))
      { state with system := state.system.taskStep } := by
  have point := follows.point
  unfold World.inside ConfigWp.taskSection EepromSystem.taskStep
  dsimp only
  cases here : (world.locals none : EepromLocal).point with
  | process request dirty =>
      rw [here] at point
      simp only [point]
      refine follows.worked _ follows.manager follows.storage follows.queue ?_
      rw [follows.manager]
  | apply domain idx record dirty =>
      rw [here] at point takes
      simp only [takesLock, Bool.and_eq_true, decide_eq_true_eq] at takes
      obtain ⟨inside, accepted⟩ := takes
      simp only [point, EepromSystem.setStep, follows.manager]
      rw [configSetRecord_ready rfl inside, if_pos accepted]
      exact follows.worked _ rfl follows.storage follows.queue rfl
  | encode =>
      rw [here] at point
      simp only [point, follows.manager]
      have encoded := configSaveEncode_statics unknown world.shared
        (world.locals none : EepromLocal).blobBuf
      rcases called : configSaveEncode (managerOf unknown world.shared
        (world.locals none : EepromLocal).blobBuf) with ⟨status | blobLen, m⟩
      · rw [called] at encoded
        exact follows.worked _ encoded follows.storage follows.queue rfl
      · rw [called] at encoded
        exact follows.worked _ encoded follows.storage follows.queue rfl
  | _ =>
      rw [here] at takes
      cases takes

theorem Follows.taskOutside (follows : Follows unknown world state)
    (skips : takesLock (world.locals none : EepromLocal).point = false) :
    Follows unknown (world.outside none taskOutside)
      { state with system := state.system.taskStep } := by
  have point := follows.point
  unfold World.outside ConfigWp.taskOutside EepromSystem.taskStep
  dsimp only
  cases here : (world.locals none : EepromLocal).point with
  | receive =>
      rw [here] at point
      simp only [point, follows.queue]
      cases world.common.queue with
      | nil => exact follows.worked _ follows.manager follows.storage follows.queue follows.point
      | cons request queue => exact follows.worked _ follows.manager follows.storage rfl rfl
  | process request dirty =>
      rw [here] at point skips
      simp only [point]
      refine follows.worked _ follows.manager follows.storage follows.queue ?_
      rw [follows.manager]
      exact processStep_skips skips _
  | apply domain idx record dirty =>
      rw [here] at point skips
      have ready : state.system.manager.initialised = true := by rw [follows.manager]; rfl
      obtain ⟨status, refused⟩ : ∃ status,
          configSetRecord domain state.system.manager idx (some record) =
            (.error status, state.system.manager) := by
        by_cases inside : idx.toNat < domain.count
        · rw [takesLock, decide_eq_true inside, Bool.true_and] at skips
          rw [configSetRecord_ready ready inside, skips]
          exact ⟨.errInvalid, rfl⟩
        · refine ⟨.errIndex, ?_⟩
          simp only [configSetRecord, ready, Bool.not_true, Bool.false_eq_true, if_false,
            dif_neg inside]
      simp only [point, EepromSystem.setStep, refused]
      exact follows.worked _ follows.manager follows.storage follows.queue rfl
  | drain dirty =>
      rw [here] at point
      simp only [point, follows.queue]
      cases left : world.common.queue with
      | nil => exact follows.worked _ follows.manager follows.storage left.symm rfl
      | cons request queue => exact follows.worked _ follows.manager follows.storage rfl rfl
  | encode =>
      rw [here] at skips
      cases skips
  | write blobLen =>
      rw [here] at point
      simp only [point]
      refine follows.worked _ follows.manager ?_ follows.queue rfl
      dsimp only
      rw [configSaveWrite_storage, follows.storage, follows.manager]
      rfl

theorem Follows.call (follows : Follows unknown world state) (cutting : Cutting unknown)
    {call : TaskCall} {atomic : Atomic ConfigCache Commons TaskLocal}
    (counted : (callInput cutting world call).atomic = some atomic) :
    Follows unknown (atomicStep world atomic) (taskCall state call) := by
  cases call with
  | eepromTask =>
      rw [callInput] at counted
      split_ifs at counted with takes
      · obtain rfl := Option.some.inj counted
        rw [(cutting.task (world.locals none : EepromLocal).point).whole]
        exact follows.taskSection takes
      · obtain rfl := Option.some.inj counted
        exact follows.taskOutside (Bool.eq_false_iff.mpr takes)
  | _ => exact follows.producer cutting (by simp) counted

/-! Runs. -/

abbrev LockedTasks : Type := Locked ConfigCache Commons TaskLocal

/-- The call that an action begins. -/
def LockedAction.begun : LockedAction → List TaskCall
  | .call began => [began]
  | .advance _ => []

variable {locked : LockedTasks}

/-- What a task begins outside the mutex does not depend on the section of the holder. -/
theorem callInput_finish (cutting : Cutting unknown) (call : TaskCall)
    (free : ¬locked.Holds (callInput cutting locked.world call).task) :
    callInput cutting locked.world call = callInput cutting locked.finish call := by
  cases call with
  | eepromTask =>
      have outside : ¬locked.Holds none := by
        rw [callInput] at free
        split_ifs at free <;> exact free
      rw [callInput, callInput, locked.finish_locals outside]
  | _ => rfl

theorem Follows.step (follows : Follows unknown locked.finish state) (cutting : Cutting unknown)
    (action : LockedAction) :
    ∃ calls, calls.Sublist action.begun ∧
      Follows unknown (lockedStep cutting locked action).finish
        (Machine.run taskCall state calls) := by
  cases action with
  | advance task =>
      refine ⟨[], List.nil_sublist _, ?_⟩
      rw [lockedStep, Locked.finish_step]
      exact follows
  | call call =>
      rw [lockedStep, Locked.finish_step]
      rcases locked.linear_cases (callInput cutting locked.world call) with
        blocked | ⟨atomic, counted, once, free⟩
      · rw [blocked]
        exact ⟨[], List.nil_sublist _, follows⟩
      · rw [once]
        rw [callInput_finish cutting call free] at counted
        exact ⟨[call], List.Sublist.refl _, follows.call cutting counted⟩

theorem Follows.run (follows : Follows unknown locked.finish state) (cutting : Cutting unknown)
    (actions : List LockedAction) :
    ∃ calls, calls.Sublist (actions.flatMap LockedAction.begun) ∧
      Follows unknown (Machine.run (lockedStep cutting) locked actions).finish
        (Machine.run taskCall state calls) := by
  induction actions generalizing locked state with
  | nil => exact ⟨[], List.nil_sublist _, follows⟩
  | cons action actions ih =>
      obtain ⟨first, started, next⟩ := follows.step cutting action
      obtain ⟨rest, ordered, reached⟩ := ih next
      refine ⟨first ++ rest, ?_, ?_⟩
      · rw [List.flatMap_cons]
        exact started.append ordered
      · rw [Machine.run_append]
        exact reached

end Worker

/-- The tasks of a booted system, with the mutex free. -/
def lockedStart (system : EepromSystem) : LockedTasks where
  world :=
    { shared := system.manager.cache
      common := { storage := system.storage, queue := system.queue }
      locals := fun task =>
        match task with
        | none => { point := system.point, blobBuf := system.manager.blobBuf : EepromLocal }
        | some _ => (none : Option CallResult) }
  holder := none

def tasksStart (system : EepromSystem) : TaskSystem := ⟨system, fun _ => none⟩

theorem follows_start {system : EepromSystem} (ready : system.manager.initialised = true) :
    Follows system.manager.unknown (lockedStart system).finish (tasksStart system) where
  manager := by
    obtain ⟨storage, ⟨cache, unknown, blobBuf, initialised⟩, queue, point, log, saves⟩ := system
    obtain rfl := ready
    rfl
  storage := rfl
  queue := rfl
  point := rfl
  results _ := rfl

/-- However the sections are cut and whatever the order of the pieces, there is an order
of the calls in which they took the mutex such that the calls made one at a time in this
order give the slots, what each task outside its section was answered, and, when the
mutex is free, the whole system. -/
theorem lockedTasks_linearizable {system : EepromSystem}
    (ready : system.manager.initialised = true) (cutting : Cutting system.manager.unknown)
    (actions : List LockedAction) {locked : LockedTasks}
    (reached : locked = Machine.run (lockedStep cutting) (lockedStart system) actions) :
    ∃ calls state, calls.Sublist (actions.flatMap LockedAction.begun) ∧
      state = Machine.run taskCall (tasksStart system) calls ∧
      locked.world.common.storage = state.system.storage ∧
      (∀ task, ¬locked.Holds (some task) →
        taskResult locked.world task = state.results task) ∧
      (locked.holder = none → Follows system.manager.unknown locked.world state) := by
  obtain ⟨calls, ordered, follows⟩ := (follows_start ready).run cutting actions
  rw [← reached] at follows
  refine ⟨calls, _, ordered, rfl, ?_, fun task free => ?_, fun free => ?_⟩
  · exact locked.finish_common ▸ follows.storage.symm
  · exact (locked.finish_locals free).symm.trans (follows.results task)
  · rwa [Locked.finish_free free] at follows

/-! A cut that tears the copies. -/

theorem set_over_set (cache : ConfigCache) (key : RecordKey) (torn record : key.domain.Record) :
    (cache.set key torn).set key record = cache.set key record := by
  refine ConfigCache.ext_get fun other => ?_
  by_cases same : other = key
  · subst same
    rw [ConfigCache.get_set_same, ConfigCache.get_set_same]
  · rw [ConfigCache.get_set_other _ _ same, ConfigCache.get_set_other _ _ same,
      ConfigCache.get_set_other _ _ same]

/-- Every setter passes through a record that nobody set. -/
def tearing (unknown : UnknownStore) : Cutting unknown where
  read task key := ⟨[readSection task key], rfl⟩
  store task key record :=
    { pieces := [storeSection task key (key.domain.get []), storeSection task key record]
      whole := by
        funext state
        exact Prod.ext (set_over_set state.1 key _ record) rfl }
  task _ := ⟨[taskSection unknown], rfl⟩

/-- A reader comes while a setter is half done, and again later. -/
def tornActions : List LockedAction :=
  [.call (.set 0 .system 0 (some committedRecord)), .advance (some 0), .call (.get 1 .system 0),
    .advance (some 0), .advance (some 0), .call (.get 1 .system 0), .advance (some 1),
    .advance (some 1)]

def tornTasks : LockedTasks :=
  Machine.run (lockedStep (tearing (EepromSystem.boot .powerUp).manager.unknown))
    (lockedStart (.boot .powerUp)) tornActions

theorem lockedTasks_linearizable_torn :
    ∃ calls state, calls.Sublist (tornActions.flatMap LockedAction.begun) ∧
      state = Machine.run taskCall (tasksStart (.boot .powerUp)) calls ∧
      tornTasks.world.common.storage = state.system.storage ∧
      (∀ task, ¬tornTasks.Holds (some task) →
        taskResult tornTasks.world task = state.results task) ∧
      (tornTasks.holder = none →
        Follows (EepromSystem.boot .powerUp).manager.unknown tornTasks.world state) :=
  lockedTasks_linearizable (boot_valid rfl).1 (tearing _) tornActions rfl

/-! No torn reads. -/

/-- The record was in the cache at the start, or some setter stored it whole. -/
def StoredWhole (base : ConfigCache) (log : ConfigLog) (key : RecordKey)
    (record : key.domain.Record) : Prop :=
  record = base.get key ∨ ∃ task, .store ⟨task, key, record⟩ ∈ log

theorem StoredWhole.grown {base : ConfigCache} {log longer : ConfigLog} {key : RecordKey}
    {record : key.domain.Record} (whole : StoredWhole base log key record)
    (grown : log <+: longer) : StoredWhole base longer key record := by
  rcases whole with first | ⟨task, listed⟩
  · exact .inl first
  · exact .inr ⟨task, grown.subset listed⟩

theorem replay_storedWhole (base : ConfigCache) (log : ConfigLog) (key : RecordKey) :
    StoredWhole base log key ((replay base log).get key) := by
  induction log using List.reverseRecOn with
  | nil => exact .inl rfl
  | append_singleton log entry ih =>
      rw [replay_snoc]
      cases entry with
      | commit task => exact ih.grown (List.prefix_append _ _)
      | store event =>
          by_cases same : key = event.key
          · subst same
            refine .inr ⟨event.task, List.mem_append_right _ (List.mem_singleton.mpr ?_)⟩
            dsimp only
            rw [ConfigCache.get_set_same]
          · dsimp only
            rw [ConfigCache.get_set_other _ _ same]
            exact ih.grown (List.prefix_append _ _)

/-- Every answer of a getter is whole. -/
structure WholeReads (base : ConfigCache) (state : TaskSystem) : Prop where
  running : ∃ write, Running base state.system write
  reads : ∀ task domain record, state.results task = some (.read domain (.ok record)) →
    ∃ channel, StoredWhole base state.system.log ⟨domain, channel⟩ record

section Reads

variable {base : ConfigCache} {state : TaskSystem}

theorem Running.step_log {system : EepromSystem} {write : WriteBehind.State StoreEvent Nat}
    (running : Running base system write) (action : SystemAction) :
    (∃ next, Running base (systemStep system action) next) ∧
      system.log <+: (systemStep system action).log := by
  obtain ⟨next, steps, stepped⟩ := running.step action
  obtain ⟨-, grown⟩ := running.covers.run_grows steps
  rw [running.refines.log, stepped.refines.log] at grown
  exact ⟨⟨next, stepped⟩, grown⟩

/-- A call that ends with an answer of a producer. -/
theorem WholeReads.answered (whole : WholeReads base state) (action : SystemAction) (task : Nat)
    (result : CallResult)
    (answer : ∀ domain record, result = .read domain (.ok record) →
      ∃ channel, StoredWhole base state.system.log ⟨domain, channel⟩ record) :
    WholeReads base
      { system := systemStep state.system action
        results := Function.update state.results task (some result) } := by
  obtain ⟨write, running⟩ := whole.running
  obtain ⟨stepped, grown⟩ := running.step_log action
  refine ⟨stepped, fun other domain record read => ?_⟩
  have found : ∃ channel, StoredWhole base state.system.log ⟨domain, channel⟩ record := by
    by_cases same : other = task
    · subst same
      dsimp only at read
      rw [Function.update_self] at read
      exact answer domain record (Option.some.inj read)
    · dsimp only at read
      rw [Function.update_of_ne same] at read
      exact whole.reads other domain record read
  obtain ⟨channel, stored⟩ := found
  exact ⟨channel, stored.grown grown⟩

theorem WholeReads.get (whole : WholeReads base state) (task : Nat) (domain : Domain)
    (idx : UInt8) : WholeReads base (taskCall state (.get task domain idx)) := by
  obtain ⟨write, running⟩ := whole.running
  refine ⟨⟨write, running⟩, fun other domain' record read => ?_⟩
  by_cases same : other = task
  · subst same
    rw [taskCall] at read
    dsimp only at read
    rw [Function.update_self] at read
    by_cases inside : (requestIndex domain idx).toNat < domain.count
    · rw [configGetRecord_ready running.refines.ready inside, running.refines.cache] at read
      cases read
      exact ⟨_, replay_storedWhole base state.system.log _⟩
    · rw [configGetRecord_outside running.refines.ready inside] at read
      cases read
  · rw [taskCall] at read
    dsimp only at read
    rw [Function.update_of_ne same] at read
    exact whole.reads other domain' record read

theorem WholeReads.call (whole : WholeReads base state) (call : TaskCall) :
    WholeReads base (taskCall state call) := by
  cases call with
  | get task domain idx => exact whole.get task domain idx
  | set task domain idx input =>
      exact whole.answered (.set task domain idx input) task (.stored _)
        fun _ _ read => by cases read
  | queueChange task type item param value =>
      exact whole.answered (.queueChange task type item param value) task (.queued _)
        fun _ _ read => by cases read
  | queueCommit task =>
      exact whole.answered (.queueCommit task) task (.queued _) fun _ _ read => by cases read
  | eepromTask =>
      obtain ⟨write, running⟩ := whole.running
      obtain ⟨stepped, grown⟩ := running.step_log .eepromTask
      refine ⟨stepped, fun task domain record read => ?_⟩
      obtain ⟨channel, stored⟩ := whole.reads task domain record read
      exact ⟨channel, stored.grown grown⟩

theorem WholeReads.run (whole : WholeReads base state) (calls : List TaskCall) :
    WholeReads base (Machine.run taskCall state calls) := by
  have preserved : ∀ state call, True → WholeReads base state →
      WholeReads base (taskCall state call) := fun _ call _ whole => whole.call call
  exact Machine.run_invariant taskCall whole preserved fun _ _ => trivial

end Reads

/-- Between any two power failures, whatever the pieces and their order, a getter only
returns a record that the boot loaded or that one setter call stored, and a valid one. -/
theorem lockedTasks_noTornRead {m : Manager} (fresh : m.initialised = false)
    (epochs : List PowerEpoch) {booted : EepromSystem}
    (started : booted = Machine.run powerEpoch (.boot m) epochs) (few : booted.saves < 2 ^ 32)
    (cutting : Cutting booted.manager.unknown) (actions : List LockedAction)
    {locked : LockedTasks}
    (reached : locked = Machine.run (lockedStep cutting) (lockedStart booted) actions)
    {task : Nat} (free : ¬locked.Holds (some task)) {domain : Domain} {record : domain.Record}
    (answered : taskResult locked.world task = some (.read domain (.ok record))) :
    validate domain record = true ∧
      ∃ calls, calls.Sublist (actions.flatMap LockedAction.begun) ∧
        ∃ channel, StoredWhole booted.manager.cache
          (Machine.run taskCall (tasksStart booted) calls).system.log ⟨domain, channel⟩ record := by
  obtain ⟨valid, running⟩ := (started ▸ booted_run fresh epochs : Booted booted) few
  have whole : WholeReads booted.manager.cache (tasksStart booted) :=
    ⟨⟨_, running⟩, fun _ _ _ read => by cases read⟩
  obtain ⟨calls, ordered, follows⟩ := (follows_start running.refines.ready).run cutting actions
  rw [← reached] at follows
  have reads := whole.run calls
  have read := (follows.results task).symm.trans ((locked.finish_locals free).trans answered)
  obtain ⟨channel, stored⟩ := reads.reads task domain record read
  refine ⟨?_, calls, ordered, channel, stored⟩
  rcases stored with first | ⟨writer, listed⟩
  · rw [first]
    exact valid ⟨domain, channel⟩
  · obtain ⟨write, there⟩ := reads.running
    exact there.refines.valid _ listed

theorem tornTasks_read :
    tornTasks.holder.isNone = true ∧
      taskResult tornTasks.world 1 = some (.read .system (.ok committedRecord)) := by
  decide +kernel

theorem lockedTasks_noTornRead_torn :
    validate .system committedRecord = true ∧
      ∃ calls, calls.Sublist (tornActions.flatMap LockedAction.begun) ∧
        ∃ channel, StoredWhole (EepromSystem.boot .powerUp).manager.cache
          (Machine.run taskCall (tasksStart (.boot .powerUp)) calls).system.log
          ⟨.system, channel⟩ committedRecord :=
  have free : ¬tornTasks.Holds (some 1) := by
    rintro ⟨pieces, held⟩
    have none := tornTasks_read.1
    rw [held] at none
    cases none
  @lockedTasks_noTornRead .powerUp rfl [] (.boot .powerUp) (Machine.run_nil powerEpoch _).symm
    (by decide) (tearing _) tornActions tornTasks rfl 1 free .system committedRecord
    tornTasks_read.2

end ConfigWp
