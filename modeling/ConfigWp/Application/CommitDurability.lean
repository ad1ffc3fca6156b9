import ConfigWp.Application.ConfigBoot
import ConfigWp.Application.EepromTask
import ConfigWp.Application.SlotRuns
import ConfigWp.Application.Validity
import ConfigWp.Library.Overlay

/-! What a queued commit promises. The cache is the replay of the log, a save captures
the log at its encoding and makes that prefix durable at its slot write, and a commit
is pending until an encoding comes after it. -/

set_option autoImplicit false

namespace ConfigWp

open WriteBehind

/-! The cache as a replay of the log. -/

def storeAddress : Entry StoreEvent Nat → Option RecordKey
  | .store event => some event.key
  | .commit _ => none

def storedRecordFor (entry : Entry StoreEvent Nat) (key : RecordKey) : key.domain.Record :=
  match entry with
  | .commit _ => key.domain.default
  | .store event => if same : event.key = key then same ▸ event.record else key.domain.default

def replay (base : ConfigCache) (log : ConfigLog) : ConfigCache :=
  Overlay.apply storeAddress cacheStore storedRecordFor base log

theorem replay_snoc (base : ConfigCache) (log : ConfigLog) (entry : Entry StoreEvent Nat) :
    replay base (log ++ [entry]) =
      match entry with
      | .store event => (replay base log).set event.key event.record
      | .commit _ => replay base log := by
  rw [replay, Overlay.apply, List.foldl_append]
  cases entry with
  | commit task => rfl
  | store event =>
      change (replay base log).set event.key (storedRecordFor (.store event) event.key) = _
      rw [storedRecordFor]
      dsimp only
      rw [dif_pos rfl]

/-- Every store of a log passed its validator. -/
def ValidLog (log : ConfigLog) : Prop :=
  ∀ event : StoreEvent, .store event ∈ log → validate event.key.domain event.record = true

theorem ValidLog.snoc {log : ConfigLog} (valid : ValidLog log) {entry : Entry StoreEvent Nat}
    (accepted : ∀ event, entry = .store event →
      validate event.key.domain event.record = true) : ValidLog (log ++ [entry]) := by
  intro event listed
  rcases List.mem_append.mp listed with old | new
  · exact valid event old
  · exact accepted event (List.mem_singleton.mp new).symm

theorem ValidLog.take {log : ConfigLog} (valid : ValidLog log) (n : Nat) :
    ValidLog (log.take n) :=
  fun event listed => valid event (List.mem_of_mem_take listed)

theorem replay_valid {base : ConfigCache} (start : base.Valid) {log : ConfigLog}
    (valid : ValidLog log) : (replay base log).Valid := by
  induction log using List.reverseRecOn with
  | nil => exact start
  | append_singleton log entry ih =>
      have before := ih fun event listed => valid event (List.mem_append_left _ listed)
      rw [replay_snoc]
      cases entry with
      | commit task => exact before
      | store event =>
          exact before.set (valid event (List.mem_append_right _ (List.mem_singleton.mpr rfl)))

/-- After a store the replay holds its record, or that of a later store. -/
theorem replay_at_or_after (base : ConfigCache) (task : Option Nat) (key : RecordKey)
    (record : key.domain.Record) (before after : ConfigLog) :
    ∃ (other : Option Nat) (value : key.domain.Record),
      .store ⟨other, key, value⟩ ∈ Entry.store ⟨task, key, record⟩ :: after ∧
        (replay base (before ++ .store ⟨task, key, record⟩ :: after)).get key = value := by
  have addressed : storeAddress (.store ⟨task, key, record⟩) = some key := rfl
  obtain ⟨found, listed, same, last⟩ := Overlay.last_at_or_after storeAddress addressed before after
  have decided := Overlay.get_apply storeAddress cacheStore storedRecordFor base
    (before ++ .store ⟨task, key, record⟩ :: after) key
  rw [last] at decided
  cases found with
  | commit other => cases same
  | store event =>
      obtain ⟨other, key', value⟩ := event
      obtain rfl := Option.some.inj same
      refine ⟨other, value, listed, decided.trans ?_⟩
      dsimp only
      rw [storedRecordFor]
      exact dif_pos rfl

/-! The refinement. -/

def TaskPoint.pending : TaskPoint → Bool
  | .receive => false
  | .process request dirty => dirty || decide (request = .commit)
  | .apply _ _ _ dirty => dirty
  | .drain dirty => dirty
  | .encode => true
  | .write _ => false

def EepromSystem.pending (system : EepromSystem) : Bool :=
  decide (.commit ∈ system.queue) || system.point.pending

/-- While a save is at its slot write, the buffer holds the payload of the log at its
encoding. -/
def Captured (base : ConfigCache) (system : EepromSystem) (capture : Option Nat) : Prop :=
  match system.point with
  | .write blobLen =>
      ∃ length, capture = some length ∧ system.manager.blobBuf.bytes.take blobLen =
        (replay base (system.log.take length)).settings.payload
  | _ => capture = none

/-- The slots hold the payload of the durable prefix, once there is one. -/
def Persisted (base : ConfigCache) (system : EepromSystem) (durable : Nat) : Prop :=
  ∃ committed, SlotRunInvariant system.saves system.storage committed ∧
    match committed with
    | none => durable = 0
    | some payload => payload.bytes = (replay base (system.log.take durable)).settings.payload

structure Refines (base : ConfigCache) (system : EepromSystem) (state : State StoreEvent Nat) :
    Prop where
  ready : system.manager.initialised = true
  cache : system.manager.cache = replay base system.log
  held : system.manager.Holds system.manager.cache.settings
  valid : ValidLog system.log
  log : state.log = system.log
  pending : state.pending = system.pending
  captured : Captured base system state.capture
  persisted : system.saves < 2 ^ 32 → Persisted base system state.durable

section Simulation

variable {base : ConfigCache} {system : EepromSystem} {state : State StoreEvent Nat}

theorem Captured.snoc {capture : Option Nat} (captured : Captured base system capture)
    (bounded : ∀ length, capture = some length → length ≤ system.log.length)
    (manager : Manager) (kept : manager.blobBuf = system.manager.blobBuf)
    (queue : List EepromRequest) (entry : Entry StoreEvent Nat) :
    Captured base { system with manager, queue, log := system.log ++ [entry] } capture := by
  unfold Captured at captured ⊢
  cases point : system.point with
  | write blobLen =>
      rw [point] at captured
      obtain ⟨length, taken, payload⟩ := captured
      refine ⟨length, taken, ?_⟩
      rw [List.take_append_of_le_length (bounded length taken), kept]
      exact payload
  | _ =>
      rw [point] at captured
      exact captured

theorem Persisted.snoc {durable : Nat} (persisted : Persisted base system durable)
    (bounded : durable ≤ system.log.length) (manager : Manager) (queue : List EepromRequest)
    (entry : Entry StoreEvent Nat) :
    Persisted base { system with manager, queue, log := system.log ++ [entry] } durable := by
  obtain ⟨committed, invariant, stored⟩ := persisted
  refine ⟨committed, invariant, ?_⟩
  rw [List.take_append_of_le_length bounded]
  exact stored

/-- An accepted store. -/
theorem Refines.store (refines : Refines base system state) (covers : Covers state)
    (event : StoreEvent) (accepted : validate event.key.domain event.record = true) :
    Refines base
      { system with
        manager := system.manager.store event.key event.record
        log := system.log ++ [.store event] }
      { state with log := state.log ++ [.store event] } where
  ready := refines.ready
  cache := by
    rw [replay_snoc, ← refines.cache]
    rfl
  held := ⟨rfl, refines.held.2⟩
  valid := refines.valid.snoc fun other same => by
    obtain rfl := Entry.store.inj same
    exact accepted
  log := by rw [refines.log]
  pending := refines.pending
  captured := refines.captured.snoc
    (fun length taken => refines.log ▸ (covers.captured length taken).2) _ rfl system.queue _
  persisted few := (refines.persisted few).snoc (refines.log ▸ covers.durable) _ system.queue _

/-- An accepted commit. -/
theorem Refines.commit (refines : Refines base system state) (covers : Covers state)
    (task : Nat) :
    Refines base
      { system with
        queue := system.queue ++ [.commit]
        log := system.log ++ [.commit task] }
      { state with log := state.log ++ [.commit task], pending := true } where
  ready := refines.ready
  cache := by
    rw [replay_snoc]
    exact refines.cache
  held := refines.held
  valid := refines.valid.snoc fun other same => by cases same
  log := by rw [refines.log]
  pending := by simp [EepromSystem.pending]
  captured := refines.captured.snoc
    (fun length taken => refines.log ▸ (covers.captured length taken).2) _ rfl _ _
  persisted few := (refines.persisted few).snoc (refines.log ▸ covers.durable) _ _ _

/-- A step that only moves the task or the queue and loses no pending work. -/
theorem Refines.move (refines : Refines base system state) {queue : List EepromRequest}
    {point : TaskPoint} (captured : Captured base { system with queue, point } state.capture)
    (kept : system.pending = true →
      ({ system with queue, point } : EepromSystem).pending = true) :
    ∃ next, Step state next ∧ Refines base { system with queue, point } next := by
  cases pending : ({ system with queue, point } : EepromSystem).pending with
  | true =>
      exact ⟨_, .mark state, refines.ready, refines.cache, refines.held, refines.valid,
        refines.log, pending.symm, captured, refines.persisted⟩
  | false =>
      have still : state.pending = false := by
        rw [refines.pending]
        exact Bool.eq_false_iff.mpr fun before => Bool.eq_false_iff.mp pending (kept before)
      exact ⟨_, .idle state, refines.ready, refines.cache, refines.held, refines.valid,
        refines.log, still.trans pending.symm, captured, refines.persisted⟩

theorem setStep_cases (ready : system.manager.initialised = true) (task : Option Nat)
    (domain : Domain) (idx : UInt8) (input : Option domain.Record) :
    (∃ status, system.setStep task domain idx input = (.error status, system)) ∨
    ∃ event : StoreEvent, validate event.key.domain event.record = true ∧
      system.setStep task domain idx input =
        (.ok (), { system with
          manager := system.manager.store event.key event.record
          log := system.log ++ [.store event] }) := by
  cases input with
  | none =>
      refine .inl ⟨.errInvalid, ?_⟩
      simp only [EepromSystem.setStep, configSetRecord, ready, Bool.not_true, Bool.false_eq_true,
        if_false]
  | some record =>
      by_cases inside : idx.toNat < domain.count
      · cases accepted : validate domain record with
        | false =>
            refine .inl ⟨.errInvalid, ?_⟩
            simp only [EepromSystem.setStep, configSetRecord_ready ready inside, accepted,
              Bool.false_eq_true, if_false]
        | true =>
            refine .inr ⟨⟨task, ⟨domain, ⟨_, inside⟩⟩, record⟩, accepted, ?_⟩
            simp only [EepromSystem.setStep, configSetRecord_ready ready inside, accepted,
              if_true, storeEntry, dif_pos inside]
            rfl
      · refine .inl ⟨.errIndex, ?_⟩
        simp only [EepromSystem.setStep, configSetRecord, ready, Bool.not_true,
          Bool.false_eq_true, if_false, dif_neg inside]

theorem configSaveEncode_holds {m : Manager} (ready : m.initialised = true)
    (held : m.Holds m.cache.settings) :
    ∃ blobBuf : BlobBuf,
      configSaveEncode m = (.ok m.cache.settings.payload.length, { m with blobBuf }) ∧
        blobBuf.bytes.take m.cache.settings.payload.length = m.cache.settings.payload := by
  have encoded := encodeCacheLocked_spec held m.blobBuf.size_eq
  rw [if_pos m.cache.payload_fits] at encoded
  rw [configSaveEncode, if_neg (by simp [ready])]
  dsimp only
  rw [encoded.1]
  exact ⟨_, rfl, encoded.2⟩

theorem configSaveWrite_storage (faults : SlotWriteFaults) (storage : Storage) (m : Manager)
    (blobLen : Nat) :
    (configSaveWrite faults storage m blobLen).2 =
      (slotWrite faults storage (m.blobBuf.bytes.take blobLen)).2 := by
  rw [configSaveWrite]
  rcases slotWrite faults storage (m.blobBuf.bytes.take blobLen) with ⟨status | done, written⟩ <;>
    rfl

/-- Away from the slot write nothing is captured. -/
theorem Refines.free (refines : Refines base system state)
    (idle : ∀ blobLen, system.point ≠ .write blobLen) : state.capture = none := by
  have captured := refines.captured
  unfold Captured at captured
  cases point : system.point with
  | write blobLen => exact absurd point (idle blobLen)
  | _ =>
      rw [point] at captured
      exact captured

/-! The steps of `eeprom_task`. -/

theorem pending_dequeue (request : EepromRequest) (queue : List EepromRequest) (dirty : Bool) :
    (decide (.commit ∈ request :: queue) || dirty) =
      (decide (.commit ∈ queue) || (dirty || decide (request = .commit))) := by
  have flip : EepromRequest.commit = request ↔ request = .commit := eq_comm
  rw [Bool.eq_iff_iff]
  simp only [Bool.or_eq_true, decide_eq_true_eq, List.mem_cons, flip]
  tauto

theorem Refines.receive (refines : Refines base system state) (point : system.point = .receive) :
    ∃ next, Step state next ∧ Refines base system.taskStep next := by
  have free := refines.free fun blobLen => by simp [point]
  rw [EepromSystem.taskStep, point]
  dsimp only
  cases queue : system.queue with
  | nil => exact ⟨state, .idle state, refines⟩
  | cons request rest =>
      refine refines.move free fun before => ?_
      rw [EepromSystem.pending, queue, point] at before
      exact (pending_dequeue request rest false).symm.trans before

theorem Refines.process (refines : Refines base system state) {request : EepromRequest}
    {dirty : Bool} (point : system.point = .process request dirty) :
    ∃ next, Step state next ∧ Refines base system.taskStep next := by
  have free := refines.free fun blobLen => by simp [point]
  rw [EepromSystem.taskStep, point]
  dsimp only
  rcases processStep_cases system.manager request dirty with
    ⟨-, drained⟩ | ⟨field, drained | ⟨domain, idx, record, changed⟩⟩
  · rw [drained]
    exact refines.move free fun _ => Bool.or_true _
  · rw [drained]
    refine refines.move free fun before => ?_
    simpa [EepromSystem.pending, TaskPoint.pending, point, field] using before
  · rw [changed]
    refine refines.move free fun before => ?_
    simpa [EepromSystem.pending, TaskPoint.pending, point, field] using before

theorem Refines.drain (refines : Refines base system state) {dirty : Bool}
    (point : system.point = .drain dirty) :
    ∃ next, Step state next ∧ Refines base system.taskStep next := by
  have free := refines.free fun blobLen => by simp [point]
  rw [EepromSystem.taskStep, point]
  dsimp only
  cases queue : system.queue with
  | nil =>
      cases dirty with
      | true => exact refines.move free fun _ => Bool.or_true _
      | false =>
          refine refines.move free fun before => ?_
          rw [EepromSystem.pending, queue, point] at before
          exact before
  | cons request rest =>
      refine refines.move free fun before => ?_
      rw [EepromSystem.pending, queue, point] at before
      exact (pending_dequeue request rest dirty).symm.trans before

/-- A refused setter moves on; an accepted one is logged before the task moves on. -/
theorem Refines.apply (refines : Refines base system state) (covers : Covers state)
    {domain : Domain} {idx : UInt8} {record : domain.Record} {dirty : Bool}
    (point : system.point = .apply domain idx record dirty) :
    ∃ next, Relation.ReflTransGen Step state next ∧ Refines base system.taskStep next := by
  have free := refines.free fun blobLen => by simp [point]
  rw [EepromSystem.taskStep, point]
  dsimp only
  rcases setStep_cases refines.ready none domain idx (some record) with
    ⟨status, same⟩ | ⟨event, accepted, stored⟩
  · rw [same]
    obtain ⟨next, step, refined⟩ := @Refines.move _ _ _ refines system.queue (.drain dirty) free
      fun before => by simpa [EepromSystem.pending, TaskPoint.pending, point] using before
    exact ⟨next, .single step, refined⟩
  · rw [stored]
    obtain ⟨next, step, refined⟩ := @Refines.move _ _ _ (refines.store covers event accepted)
      system.queue (.drain true) free fun _ => Bool.or_true _
    exact ⟨next, .tail (.single (.store state event)) step, refined⟩

theorem Refines.taskStep_encode (refines : Refines base system state)
    (point : system.point = .encode) :
    ∃ blobBuf : BlobBuf,
      system.taskStep =
          { system with
            manager := { system.manager with blobBuf }
            point := .write system.manager.cache.settings.payload.length } ∧
        blobBuf.bytes.take system.manager.cache.settings.payload.length =
          system.manager.cache.settings.payload := by
  obtain ⟨blobBuf, encoded, front⟩ := configSaveEncode_holds refines.ready refines.held
  refine ⟨blobBuf, ?_, front⟩
  rw [EepromSystem.taskStep, point]
  dsimp only
  rw [encoded]

/-- The encoding captures the log. -/
theorem Refines.encode (refines : Refines base system state) (point : system.point = .encode) :
    ∃ next, Step state next ∧ Refines base system.taskStep next := by
  have free := refines.free fun blobLen => by simp [point]
  obtain ⟨blobBuf, moved, front⟩ := refines.taskStep_encode point
  rw [moved]
  refine ⟨_, .capture state free (decide (.commit ∈ system.queue)), ?_⟩
  exact {
    ready := refines.ready
    cache := refines.cache
    held := refines.held.congr rfl rfl
    valid := refines.valid
    log := refines.log
    pending := (Bool.or_false _).symm
    captured := by
      refine ⟨_, rfl, ?_⟩
      rw [refines.log, List.take_length, ← refines.cache]
      exact front
    persisted := fun few => refines.persisted few }

/-- The slot write makes the captured prefix durable. -/
theorem Refines.write (refines : Refines base system state) {blobLen : Nat}
    (point : system.point = .write blobLen) :
    ∃ next, Step state next ∧ Refines base system.taskStep next := by
  obtain ⟨length, taken, payload⟩ : ∃ length, state.capture = some length ∧
      system.manager.blobBuf.bytes.take blobLen =
        (replay base (system.log.take length)).settings.payload := by
    have captured := refines.captured
    rw [Captured, point] at captured
    exact captured
  rw [EepromSystem.taskStep, point]
  refine ⟨_, .flush state length taken, ?_⟩
  exact {
    ready := refines.ready
    cache := refines.cache
    held := refines.held
    valid := refines.valid
    log := refines.log
    pending := by
      rw [refines.pending, EepromSystem.pending, EepromSystem.pending, point]
      rfl
    captured := rfl
    persisted := fun few => by
      dsimp only at few
      obtain ⟨committed, invariant, -⟩ := refines.persisted (Nat.lt_of_succ_lt few)
      refine ⟨some ((replay base (system.log.take length)).settings.slotPayload
        (ConfigCache.payload_fits _)), ?_, rfl⟩
      dsimp only
      rw [configSaveWrite_storage, payload]
      exact @slotRunInvariant_completed _ _ _
        ((replay base (system.log.take length)).settings.slotPayload (ConfigCache.payload_fits _))
        few invariant }

/-- A save that has begun completes in two steps. -/
theorem Refines.save (refines : Refines base system state) (point : system.point = .encode)
    {saved : EepromSystem}
    (stepped : saved = Machine.run systemStep system [.eepromTask, .eepromTask]) :
    saved.point = .receive ∧ saved.queue = system.queue ∧ saved.log = system.log ∧
      saved.saves = system.saves + 1 := by
  obtain ⟨blobBuf, moved, -⟩ := refines.taskStep_encode point
  rw [stepped, Machine.run_cons, systemStep, moved]
  exact ⟨rfl, rfl, rfl, rfl⟩

theorem Refines.taskStep (refines : Refines base system state) (covers : Covers state) :
    ∃ next, Relation.ReflTransGen Step state next ∧ Refines base system.taskStep next := by
  have single : (∃ next, Step state next ∧ Refines base system.taskStep next) →
      ∃ next, Relation.ReflTransGen Step state next ∧ Refines base system.taskStep next :=
    fun ⟨next, step, refined⟩ => ⟨next, .single step, refined⟩
  cases point : system.point with
  | receive => exact single (refines.receive point)
  | process request dirty => exact single (refines.process point)
  | apply domain idx record dirty => exact refines.apply covers point
  | drain dirty => exact single (refines.drain point)
  | encode => exact single (refines.encode point)
  | write blobLen => exact single (refines.write point)

/-! The steps of the producers. -/

theorem xQueueSend_eq_some {queue sent : List EepromRequest} {request : EepromRequest}
    (accepted : xQueueSend queue request = some sent) : sent = queue ++ [request] := by
  rw [xQueueSend] at accepted
  split_ifs at accepted
  exact (Option.some.inj accepted).symm

theorem Refines.set (refines : Refines base system state) (covers : Covers state) (task : Nat)
    (domain : Domain) (idx : UInt8) (input : Option domain.Record) :
    ∃ next, Step state next ∧
      Refines base (systemStep system (.set task domain idx input)) next := by
  rw [systemStep]
  rcases setStep_cases refines.ready (some task) domain (requestIndex domain idx) input with
    ⟨status, same⟩ | ⟨event, accepted, stored⟩
  · rw [same]
    exact ⟨state, .idle state, refines⟩
  · rw [stored]
    exact ⟨_, .store state event, refines.store covers event accepted⟩

theorem Refines.queueChange (refines : Refines base system state) (type : UInt32) (item : UInt8)
    (param : UInt16) (value : EepromValue) :
    ∃ next, Step state next ∧
      Refines base (queueConfigChange system type item param value).2 next := by
  rw [queueConfigChange]
  split_ifs
  · exact ⟨state, .idle state, refines⟩
  · cases sent : xQueueSend system.queue (.field type item param value) with
    | none => exact ⟨state, .idle state, refines⟩
    | some queue =>
        obtain rfl := xQueueSend_eq_some sent
        refine @Refines.move _ _ _ refines _ system.point refines.captured fun before => ?_
        rw [EepromSystem.pending] at before ⊢
        simpa using before

theorem Refines.queueCommit (refines : Refines base system state) (covers : Covers state)
    (task : Nat) :
    ∃ next, Step state next ∧ Refines base (queueConfigCommit system task).2 next := by
  rw [queueConfigCommit]
  cases sent : xQueueSend system.queue .commit with
  | none => exact ⟨state, .idle state, refines⟩
  | some queue =>
      obtain rfl := xQueueSend_eq_some sent
      exact ⟨_, .commit state task, refines.commit covers task⟩

/-- Every step of the system is a run of write-behind steps. -/
theorem Refines.step (refines : Refines base system state) (covers : Covers state)
    (action : SystemAction) :
    ∃ next, Relation.ReflTransGen Step state next ∧
      Refines base (systemStep system action) next := by
  cases action with
  | set task domain idx input =>
      obtain ⟨next, step, refined⟩ := refines.set covers task domain idx input
      exact ⟨next, .single step, refined⟩
  | queueChange task type item param value =>
      obtain ⟨next, step, refined⟩ := refines.queueChange type item param value
      exact ⟨next, .single step, refined⟩
  | queueCommit task =>
      obtain ⟨next, step, refined⟩ := refines.queueCommit covers task
      exact ⟨next, .single step, refined⟩
  | eepromTask => exact refines.taskStep covers

end Simulation

/-! Runs. -/

theorem boot_valid {m : Manager} (fresh : m.initialised = false) :
    (EepromSystem.boot m).manager.initialised = true ∧
      (EepromSystem.boot m).manager.cache.Valid ∧
        (EepromSystem.boot m).manager.Holds (EepromSystem.boot m).manager.cache.settings := by
  have ready := (configInit_boot fresh .none storageInit).1
  exact ⟨ready, (guarded_init (guarded_erased fresh) true .none).held ready⟩

theorem refines_boot {m : Manager} (fresh : m.initialised = false) :
    Refines (EepromSystem.boot m).manager.cache (.boot m) .init where
  ready := (boot_valid fresh).1
  cache := rfl
  held := (boot_valid fresh).2.2
  valid event listed := absurd listed List.not_mem_nil
  log := rfl
  pending := rfl
  captured := rfl
  persisted _ := by
    refine ⟨none, ⟨?_, slotPair_erased⟩, rfl⟩
    intro id seq stamp
    rw [EepromSystem.boot, slotPair_erased id] at stamp
    cases stamp

theorem refines_run {m : Manager} (fresh : m.initialised = false) (actions : List SystemAction) :
    ∃ state, Covers state ∧
      Refines (EepromSystem.boot m).manager.cache (Machine.run systemStep (.boot m) actions)
        state := by
  have preserved : ∀ system action, True →
      (∃ state, Covers state ∧ Refines (EepromSystem.boot m).manager.cache system state) →
        ∃ state, Covers state ∧
          Refines (EepromSystem.boot m).manager.cache (systemStep system action) state := by
    rintro system action - ⟨state, covers, refines⟩
    obtain ⟨next, steps, refined⟩ := refines.step covers action
    exact ⟨next, covers.run steps, refined⟩
  exact Machine.run_invariant systemStep ⟨.init, covers_init, refines_boot fresh⟩ preserved
    fun _ _ => trivial

private theorem take_past {α : Type*} (before rest : List α) (entry : α) {n : Nat}
    (past : before.length < n) :
    ∃ k, (before ++ entry :: rest).take n = before ++ entry :: rest.take k := by
  obtain ⟨k, rfl⟩ := Nat.exists_eq_add_of_lt past
  exact ⟨k, by rw [Nat.add_assoc, List.take_length_add_append, List.take_succ_cons]⟩

/-- The payload is a whole encoding, and its record for the key is the value. -/
def PayloadHolds (payload : List UInt8) (key : RecordKey) (value : key.domain.Record) : Prop :=
  (Settings.boot (some payload)).payload = payload ∧
    (Settings.boot (some payload)).cache.get key = value

/-- When `eeprom_task` is blocked on an empty queue, the payload that the reader picks
holds, for every store that its task followed by an accepted commit, that store's record
or the record of a later store to the same key. -/
theorem commit_durable {m : Manager} (fresh : m.initialised = false)
    (actions : List SystemAction) {system : EepromSystem}
    (reached : system = Machine.run systemStep (.boot m) actions)
    (few : system.saves < 2 ^ 32) (blocked : system.point = .receive)
    (empty : system.queue = []) {task : Nat} {key : RecordKey} {record : key.domain.Record}
    {before middle after : ConfigLog}
    (history : system.log =
      before ++ .store ⟨some task, key, record⟩ :: (middle ++ .commit task :: after))
    {buf : List UInt8} (room : slotPayloadMaxBytes ≤ buf.length) :
    ∃ id payload,
      (slotPickActive .none system.storage buf).1 = .ok (id, payload.length) ∧
        (slotPickActive .none system.storage buf).2.take payload.length = payload ∧
          ∃ (other : Option Nat) (value : key.domain.Record),
            .store ⟨other, key, value⟩ ∈
                Entry.store ⟨some task, key, record⟩ :: (middle ++ .commit task :: after) ∧
              PayloadHolds payload key value := by
  obtain ⟨state, covers, refines⟩ := refines_run fresh actions
  rw [← reached] at refines
  have clean : state.pending = false := by
    rw [refines.pending, EepromSystem.pending, blocked, empty]
    rfl
  have free := refines.free fun blobLen => by simp [blocked]
  -- the commit lies in the durable prefix, so the store before it does
  have placed : state.log[(before ++ .store ⟨some task, key, record⟩ :: middle).length]? =
      some (.commit task) := by
    rw [refines.log, history, ← List.cons_append, ← List.append_assoc,
      List.getElem?_append_right (Nat.le_refl _), Nat.sub_self, List.getElem?_cons_zero]
  have durable := covers.committed free clean placed
  have past : before.length < state.durable := by
    rw [List.length_append] at durable
    omega
  obtain ⟨k, prefixed⟩ := take_past before (middle ++ .commit task :: after)
    (.store ⟨some task, key, record⟩) past
  obtain ⟨committed, invariant, stored⟩ := refines.persisted few
  cases committed with
  | none =>
      dsimp only at stored
      omega
  | some payload =>
      dsimp only at stored
      rw [history, prefixed] at stored
      obtain ⟨other, value, listed, held⟩ := replay_at_or_after
        (EepromSystem.boot m).manager.cache (some task) key record before
        ((middle ++ .commit task :: after).take k)
      obtain ⟨id, answer, front⟩ := slotPickActive_of_invariant invariant room
      refine ⟨id, payload.bytes, answer, front, other, value, ?_, ?_⟩
      · exact List.cons_subset_cons _ (List.take_subset _ _) listed
      · have valid := refines.valid.take state.durable
        rw [history, prefixed] at valid
        have reread := (replay_valid (boot_valid fresh).2.1 valid).storable.boot_payload.1
        rw [PayloadHolds, stored, reread]
        exact ⟨rfl, held⟩

def committedRecord : SystemConfig := { systemDefault with canopenNodeId := 5 }

/-- One task stores a record and queues a commit, and `eeprom_task` runs to its save. -/
def savingActions : List SystemAction :=
  [.set 0 .system 0 (some committedRecord), .queueCommit 0] ++ List.replicate 3 .eepromTask

def savingSystem : EepromSystem := Machine.run systemStep (.boot .powerUp) savingActions

def committedLog : ConfigLog := [.store ⟨some 0, systemKey, committedRecord⟩, .commit 0]

theorem savingSystem_encode :
    savingSystem.point = .encode ∧ savingSystem.queue = [] ∧ savingSystem.log = committedLog ∧
      savingSystem.saves = 0 := by
  decide +kernel

def committedSystem : EepromSystem :=
  Machine.run systemStep (.boot .powerUp) (savingActions ++ [.eepromTask, .eepromTask])

theorem committedSystem_blocked :
    committedSystem.point = .receive ∧ committedSystem.queue = [] ∧
      committedSystem.log = committedLog ∧ committedSystem.saves = 1 := by
  obtain ⟨point, empty, history, saves⟩ := savingSystem_encode
  obtain ⟨state, -, refines⟩ := @refines_run .powerUp rfl savingActions
  rw [← savingSystem] at refines
  have saved := refines.save point (Machine.run_append systemStep _ savingActions _)
  rw [empty, history, saves] at saved
  exact saved

theorem commit_durable_single :
    ∃ id payload,
      (slotPickActive .none committedSystem.storage (List.replicate 2028 0)).1 =
          .ok (id, payload.length) ∧
        (slotPickActive .none committedSystem.storage (List.replicate 2028 0)).2.take
            payload.length = payload ∧
          ∃ (other : Option Nat) (value : SystemConfig),
            .store ⟨other, systemKey, value⟩ ∈ committedLog ∧
              PayloadHolds payload systemKey value :=
  have ⟨blocked, empty, history, saves⟩ := committedSystem_blocked
  @commit_durable .powerUp rfl _ committedSystem rfl (by rw [saves]; decide) blocked empty 0
    systemKey committedRecord [] [] [] history (List.replicate 2028 0) List.length_replicate.ge

end ConfigWp
