import ConfigWp.Application.FieldWrites
import ConfigWp.Application.Quiescence

/-! Tasks that change the configuration by requests only. The queue hands the requests it
accepted to `eeprom_task` in their order, and nobody comes between the getter and the
setter of one, so an idle task has given each field the last legal value asked for, and
has saved what it gave. -/

set_option autoImplicit false

namespace ConfigWp

open Writes

/-- A step of such a system. -/
def SystemAction.queued : SystemAction → Bool
  | .set _ _ _ _ => false
  | _ => true

/-- The requests that a step queues. -/
def acceptedRequests (system : EepromSystem) : SystemAction → List EepromRequest
  | .queueChange _ type item param value =>
      if (queueConfigChange system type item param value).1 then [.field type item param value]
      else []
  | .queueCommit task => if (queueConfigCommit system task).1 then [.commit] else []
  | _ => []

/-- The requests that a run queues, in the order of the queue. -/
def acceptedRun : EepromSystem → List SystemAction → List EepromRequest
  | _, [] => []
  | system, action :: actions =>
      acceptedRequests system action ++ acceptedRun (systemStep system action) actions

/-- The request that `eeprom_task` has received and not finished. -/
def EepromSystem.InHand (system : EepromSystem) (hand : List EepromRequest) : Prop :=
  match system.point with
  | .process request _ => hand = [request]
  | .apply domain idx record _ => ∃ request, hand = [request] ∧
      (processRequest system.manager request).2 =
        (configSetRecord domain system.manager idx (some record)).2
  | _ => hand = []

/-- The cache has changed since the last save. -/
def TaskPoint.dirty : TaskPoint → Bool
  | .receive => false
  | .process _ dirty => dirty
  | .apply _ _ _ dirty => dirty
  | .drain dirty => dirty
  | .encode => true
  | .write _ => true

/-- The slots hold the cache unless it has changed, and a slot write has the cache to
write. -/
structure EepromSystem.Saves (system : EepromSystem) : Prop where
  stored : system.point.dirty = false →
    Stored system.manager.cache system.saves system.storage
  invariant : ∃ committed, SlotRunInvariant system.saves system.storage committed
  writing : ∀ blobLen, system.point = .write blobLen →
    system.manager.blobBuf.bytes.take blobLen = system.manager.cache.settings.payload

/-- The requests are those that are done, the one in hand and those in the queue, and the
cache is what the done ones made of it. -/
structure Served (start : ConfigCache) (requests : List EepromRequest) (system : EepromSystem)
    (done hand : List EepromRequest) : Prop where
  ready : system.manager.initialised = true
  valid : system.manager.cache.Valid
  held : system.manager.Holds system.manager.cache.settings
  split : requests = done ++ hand ++ system.queue
  inHand : system.InHand hand
  turns : Turns start.field (done.flatMap requestWrites) system.manager.cache.field
  saves : system.saves < 2 ^ 32 → system.Saves

section Steps

variable {start : ConfigCache} {requests done hand : List EepromRequest} {system : EepromSystem}

/-- A producer does nothing but queue what it asks for. -/
theorem systemStep_queued {action : SystemAction} (queued : action.queued = true)
    (producer : action ≠ .eepromTask) :
    ∃ log, systemStep system action =
      { system with queue := system.queue ++ acceptedRequests system action, log } := by
  cases action with
  | set task domain idx input => cases queued
  | eepromTask => exact absurd rfl producer
  | queueChange task type item param value =>
      refine ⟨system.log, ?_⟩
      by_cases unknown : type.toNat ≥ Domain.all.length
      · simp [systemStep, acceptedRequests, queueConfigChange, unknown]
      · by_cases room : system.queue.length < eepromQueueDepth <;>
          simp [systemStep, acceptedRequests, queueConfigChange, xQueueSend, unknown, room]
  | queueCommit task =>
      by_cases room : system.queue.length < eepromQueueDepth
      · exact ⟨system.log ++ [.commit task], by
          simp [systemStep, acceptedRequests, queueConfigCommit, xQueueSend, room]⟩
      · exact ⟨system.log, by
          simp [systemStep, acceptedRequests, queueConfigCommit, xQueueSend, room]⟩

theorem Served.queued (served : Served start requests system done hand) {action : SystemAction}
    (queued : action.queued = true) (producer : action ≠ .eepromTask) :
    Served start (requests ++ acceptedRequests system action) (systemStep system action) done
      hand := by
  obtain ⟨log, stepped⟩ := @systemStep_queued system action queued producer
  rw [stepped]
  exact {
    ready := served.ready
    valid := served.valid
    held := served.held
    split := by rw [served.split, List.append_assoc]
    inHand := served.inHand
    turns := served.turns
    saves := fun few =>
      have saves := served.saves few
      ⟨saves.stored, saves.invariant, saves.writing⟩ }

/-- Receiving from the queue, at either receive. -/
theorem Served.receive (served : Served start requests system done [])
    {request : EepromRequest} {queue : List EepromRequest} (front : system.queue = request :: queue)
    {dirty : Bool} (same : system.point.dirty = dirty) :
    Served start requests { system with queue, point := .process request dirty } done
      [request] where
  ready := served.ready
  valid := served.valid
  held := served.held
  split := by simpa [front] using served.split
  inHand := rfl
  turns := served.turns
  saves few :=
    have saves := served.saves few
    { stored := fun clean => saves.stored (same.trans clean)
      invariant := saves.invariant
      writing := fun _ here => by cases here }

/-- A request that ends without a setter leaves the manager as it is. -/
theorem Served.finish (served : Served start requests system done hand)
    {request : EepromRequest} (inHand : hand = [request])
    (unchanged : (processRequest system.manager request).2 = system.manager) {dirty : Bool}
    (same : system.point.dirty = true → dirty = true) :
    Served start requests { system with point := .drain dirty } (done ++ [request]) [] where
  ready := served.ready
  valid := served.valid
  held := served.held
  split := by rw [served.split, inHand, List.append_nil]
  inHand := rfl
  turns := by
    have kept := processRequest_turns served.ready served.valid request
    rw [unchanged] at kept
    rw [List.flatMap_append, List.flatMap_singleton]
    exact served.turns.trans kept
  saves few :=
    have saves := served.saves few
    { stored := fun clean => saves.stored (by
        cases dirt : system.point.dirty with
        | false => rfl
        | true => exact absurd (same dirt) (Bool.eq_false_iff.mp clean))
      invariant := saves.invariant
      writing := fun _ here => by cases here }

theorem Served.process (served : Served start requests system done hand)
    {request : EepromRequest} {dirty : Bool} (point : system.point = .process request dirty) :
    ∃ done hand, Served start requests system.taskStep done hand := by
  have inHand : hand = [request] := by
    have shown := served.inHand
    rw [EepromSystem.InHand, point] at shown
    exact shown
  have steps := processRequest_eq_steps system.manager request dirty
  rw [EepromSystem.taskStep, point]
  dsimp only
  rcases processStep_cases system.manager request dirty with
    ⟨-, drained⟩ | ⟨-, drained | ⟨domain, idx, record, changed⟩⟩
  · rw [drained] at steps ⊢
    exact ⟨_, _, served.finish inHand (congrArg Prod.snd steps) fun _ => rfl⟩
  · rw [drained] at steps ⊢
    refine ⟨_, _, served.finish inHand (congrArg Prod.snd steps) fun dirt => ?_⟩
    rwa [point] at dirt
  · rw [changed] at steps ⊢
    refine ⟨done, hand, ?_⟩
    exact {
      ready := served.ready
      valid := served.valid
      held := served.held
      split := served.split
      inHand := by
        refine ⟨request, inHand, (congrArg Prod.snd steps).trans ?_⟩
        dsimp only
        rcases configSetRecord domain system.manager idx (some record) with ⟨status | done, m⟩ <;>
          rfl
      turns := served.turns
      saves := fun few =>
        have saves := served.saves few
        { stored := fun clean => saves.stored (by rw [point]; exact clean)
          invariant := saves.invariant
          writing := fun _ here => by cases here } }

/-- The setter of the request in hand. -/
theorem Served.apply (served : Served start requests system done hand) {domain : Domain}
    {idx : UInt8} {record : domain.Record} {dirty : Bool}
    (point : system.point = .apply domain idx record dirty) :
    ∃ done hand, Served start requests system.taskStep done hand := by
  obtain ⟨request, inHand, outcome⟩ : ∃ request, hand = [request] ∧
      (processRequest system.manager request).2 =
        (configSetRecord domain system.manager idx (some record)).2 := by
    have shown := served.inHand
    rw [EepromSystem.InHand, point] at shown
    exact shown
  have turns := processRequest_turns served.ready served.valid request
  have effect := configSetRecord_effect domain system.manager idx (some record)
  rw [EepromSystem.taskStep, point]
  dsimp only
  rw [EepromSystem.setStep]
  generalize configSetRecord domain system.manager idx (some record) = result at outcome effect ⊢
  cases effect with
  | refused status =>
      refine ⟨_, _, served.finish inHand outcome fun dirt => ?_⟩
      rwa [point] at dirt
  | stored key stored ready accepted =>
      rw [outcome] at turns
      refine ⟨done ++ [request], [], ?_⟩
      exact {
        ready := ready
        valid := served.valid.set accepted
        held := ⟨rfl, served.held.2⟩
        split := by rw [served.split, inHand, List.append_nil]
        inHand := rfl
        turns := by
          rw [List.flatMap_append, List.flatMap_singleton]
          exact served.turns.trans turns
        saves := fun few =>
          { stored := fun clean => by cases clean
            invariant := (served.saves few).invariant
            writing := fun _ here => by cases here } }

/-- The encoding takes the cache as it stands. -/
theorem Served.encode (served : Served start requests system done [])
    (point : system.point = .encode) : Served start requests system.taskStep done [] := by
  obtain ⟨blobBuf, encoded, front⟩ := configSaveEncode_holds served.ready served.held
  rw [EepromSystem.taskStep, point]
  dsimp only
  rw [encoded]
  exact {
    ready := served.ready
    valid := served.valid
    held := served.held.congr rfl rfl
    split := served.split
    inHand := rfl
    turns := served.turns
    saves := fun few =>
      { stored := fun clean => by cases clean
        invariant := (served.saves few).invariant
        writing := fun blobLen here => by
          obtain rfl := TaskPoint.write.inj here
          exact front } }

theorem Served.write (served : Served start requests system done []) {blobLen : Nat}
    (point : system.point = .write blobLen) : Served start requests system.taskStep done [] := by
  rw [EepromSystem.taskStep, point]
  exact {
    ready := served.ready
    valid := served.valid
    held := served.held
    split := served.split
    inHand := rfl
    turns := served.turns
    saves := fun few => by
      dsimp only at few
      have saves := served.saves (Nat.lt_of_succ_lt few)
      obtain ⟨committed, invariant⟩ := saves.invariant
      have written := @slotRunInvariant_completed _ _ _
        (system.manager.cache.settings.slotPayload (ConfigCache.payload_fits _)) few invariant
      have same : (configSaveWrite .none system.storage system.manager blobLen).2 =
          (slotWrite .none system.storage
            (system.manager.cache.settings.slotPayload (ConfigCache.payload_fits _)).bytes).2 := by
        rw [configSaveWrite_storage, saves.writing blobLen point]
        rfl
      dsimp only
      rw [← same] at written
      exact {
        stored := fun _ => ⟨_, written, rfl⟩
        invariant := ⟨_, written⟩
        writing := fun _ here => by cases here } }

theorem Served.task (served : Served start requests system done hand) :
    ∃ done hand, Served start requests system.taskStep done hand := by
  have inHand := served.inHand
  rw [EepromSystem.InHand] at inHand
  cases point : system.point with
  | process request dirty => exact served.process point
  | apply domain idx record dirty => exact served.apply point
  | receive =>
      rw [point] at inHand
      obtain rfl := inHand
      rw [EepromSystem.taskStep, point]
      dsimp only
      cases front : system.queue with
      | nil => exact ⟨done, [], served⟩
      | cons request queue => exact ⟨_, _, served.receive front (by rw [point]; rfl)⟩
  | drain dirty =>
      rw [point] at inHand
      obtain rfl := inHand
      rw [EepromSystem.taskStep, point]
      dsimp only
      cases front : system.queue with
      | cons request queue => exact ⟨_, _, served.receive front (by rw [point]; rfl)⟩
      | nil =>
          refine ⟨done, [], ?_⟩
          exact {
            ready := served.ready
            valid := served.valid
            held := served.held
            split := by rw [served.split, front]
            inHand := by cases dirty <;> rfl
            turns := served.turns
            saves := fun few =>
              have saves := served.saves few
              { stored := fun clean => saves.stored (by
                  rw [point]
                  cases dirty with
                  | false => rfl
                  | true => cases clean)
                invariant := saves.invariant
                writing := fun _ here => by cases dirty <;> cases here } }
  | encode =>
      rw [point] at inHand
      obtain rfl := inHand
      exact ⟨_, _, served.encode point⟩
  | write blobLen =>
      rw [point] at inHand
      obtain rfl := inHand
      exact ⟨_, _, served.write point⟩

theorem Served.step (served : Served start requests system done hand) {action : SystemAction}
    (queued : action.queued = true) :
    ∃ done hand, Served start (requests ++ acceptedRequests system action)
      (systemStep system action) done hand := by
  by_cases task : action = .eepromTask
  · subst task
    have nothing : acceptedRequests system .eepromTask = [] := rfl
    rw [nothing, List.append_nil]
    exact served.task
  · exact ⟨done, hand, served.queued queued task⟩

theorem Served.run (served : Served start requests system done hand)
    {actions : List SystemAction} (queued : ∀ action ∈ actions, action.queued = true) :
    ∃ done hand, Served start (requests ++ acceptedRun system actions)
      (Machine.run systemStep system actions) done hand := by
  induction actions generalizing system requests done hand with
  | nil => exact ⟨done, hand, by rwa [acceptedRun, List.append_nil]⟩
  | cons action actions ih =>
      obtain ⟨now, rest⟩ := List.forall_mem_cons.mp queued
      obtain ⟨_, _, next⟩ := served.step now
      obtain ⟨done, hand, reached⟩ := ih next rest
      exact ⟨done, hand, by rwa [acceptedRun, ← List.append_assoc]⟩

end Steps

theorem served_booted {system : EepromSystem} (booted : Booted system)
    (few : system.saves < 2 ^ 32) (blocked : system.point = .receive)
    (empty : system.queue = []) : Served system.manager.cache [] system [] [] := by
  obtain ⟨valid, running⟩ := booted few
  have stored := running.stored few
  exact {
    ready := running.refines.ready
    valid := valid
    held := running.refines.held
    split := empty.symm
    inHand := by rw [EepromSystem.InHand, blocked]
    turns := turns_nil _
    saves := fun _ =>
      have ⟨committed, invariant, _⟩ := stored
      { stored := fun _ => stored
        invariant := ⟨committed, invariant⟩
        writing := fun _ here => by
          rw [blocked] at here
          cases here } }

theorem idle_epochs (m : Manager) (epochs : List PowerEpoch) :
    (Machine.run powerEpoch (.boot m) epochs).point = .receive ∧
      (Machine.run powerEpoch (.boot m) epochs).queue = [] := by
  have preserved : ∀ (system : EepromSystem) (epoch : PowerEpoch), True →
      (system.point = .receive ∧ system.queue = []) →
        ((powerEpoch system epoch).point = .receive ∧ (powerEpoch system epoch).queue = []) :=
    fun _ _ _ _ => ⟨rfl, rfl⟩
  exact Machine.run_invariant powerEpoch ⟨rfl, rfl⟩ preserved fun _ _ => trivial

/-- When the producers only queue requests and `eeprom_task` is idle, each field holds the
value of the last accepted request that was legal for it, or what it held at the boot, and
a power failure loses nothing of it. -/
theorem requestRun_fields {m : Manager} (fresh : m.initialised = false)
    (epochs : List PowerEpoch) {booted idle : EepromSystem}
    (started : booted = Machine.run powerEpoch (.boot m) epochs) {actions : List SystemAction}
    (queued : ∀ action ∈ actions, action.queued = true)
    (reached : idle = Machine.run systemStep booted actions) (blocked : idle.point = .receive)
    (empty : idle.queue = []) (few : idle.saves < 2 ^ 32) (ending : SlotWriteEnd) :
    (∀ place, idle.manager.cache.field place =
      (final place ((acceptedRun booted actions).flatMap requestWrites)).getD
        (booted.manager.cache.field place)) ∧
    (idle.powerCycle ending).manager.cache = idle.manager.cache := by
  have early : booted.saves ≤ idle.saves := reached ▸ saves_le_run booted actions
  have start : Served booted.manager.cache [] booted [] [] := by
    obtain ⟨waiting, nothing⟩ := idle_epochs m epochs
    rw [← started] at waiting nothing
    exact served_booted (started ▸ booted_run fresh epochs) (early.trans_lt few) waiting nothing
  obtain ⟨done, hand, served⟩ := start.run queued
  rw [List.nil_append, ← reached] at served
  obtain rfl : hand = [] := by
    have shown := served.inHand
    rw [EepromSystem.InHand, blocked] at shown
    exact shown
  have whole : acceptedRun booted actions = done := by
    rw [served.split, empty, List.append_nil, List.append_nil]
  constructor
  · rw [whole]
    exact served.turns
  · have stored := (served.saves few).stored (by rw [blocked]; rfl)
    have left : idle.powerLoss ending = (idle.storage, idle.saves) := by
      rw [EepromSystem.powerLoss, blocked]
    obtain ⟨loaded, -⟩ := @Stored.running _ _ _ stored served.valid .powerUp rfl
    rw [EepromSystem.powerCycle, left, loaded]

/-- Two producers that ask for the node id one after the other, and turns enough. -/
def askedActions : List SystemAction :=
  [.queueChange 0 7 0 0 ⟨.ofBytes [5]⟩, .queueChange 1 7 0 0 ⟨.ofBytes [6]⟩] ++
    List.replicate 53 .eepromTask

def askedSystem : EepromSystem := Machine.run systemStep (.boot .powerUp) askedActions

theorem requestRun_fields_node :
    askedSystem.manager.cache.field ⟨.system, .canopenNodeId⟩ = .number 6 ∧
      (askedSystem.powerCycle .completed).manager.cache = askedSystem.manager.cache := by
  have few : askedSystem.saves < 2 ^ 32 := by
    have bound : askedSystem.saves ≤ 0 + askedActions.length := saves_run_le (.boot .powerUp) _
    have size : askedActions.length = 55 := rfl
    omega
  have idle : askedSystem.point = .receive ∧ askedSystem.queue = [] := by
    have bounded : QueueBounded (.boot .powerUp) := Nat.zero_le _
    have quiet : ∀ action ∈ List.replicate 53 SystemAction.eepromTask, action.quiet = true := by
      simp [SystemAction.quiet]
    rw [askedSystem, askedActions, Machine.run_append]
    exact blocked_after_turns (queueBounded_run bounded _) quiet (by decide)
  have held := @requestRun_fields .powerUp rfl [] (.boot .powerUp) askedSystem
    (Machine.run_nil powerEpoch _).symm askedActions (by simp [askedActions, SystemAction.queued])
    (by rw [askedSystem]) idle.1 idle.2 few .completed
  refine ⟨(held.1 _).trans ?_, held.2⟩
  have last : final ⟨.system, .canopenNodeId⟩
      ((acceptedRun (.boot .powerUp) askedActions).flatMap requestWrites) = some (.number 6) := by
    decide +kernel
  rw [last, Option.getD_some]

end ConfigWp
