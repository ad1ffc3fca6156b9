import ConfigWp.Application.PowerCycles

/-! How soon a commit is safe. `eeprom_task` drains its queue before it saves, so new
requests put a save off; without them a rank falls at each of its steps, and when the
rank is used up the task is idle and every commit before is durable. -/

set_option autoImplicit false

namespace ConfigWp

open WriteBehind

/-! The rank. -/

/-- The steps from the outer receive, with so many requests queued, to an idle task. -/
def receiveRank (queued : Nat) : Nat := if queued = 0 then 0 else 3 * queued + 3

/-- The most steps `eeprom_task` can still take before it is idle. -/
def EepromSystem.rank (system : EepromSystem) : Nat :=
  match system.point with
  | .receive => receiveRank system.queue.length
  | .process _ _ => 3 * system.queue.length + 5
  | .apply _ _ _ _ => 3 * system.queue.length + 4
  | .drain _ => 3 * system.queue.length + 3
  | .encode => receiveRank system.queue.length + 2
  | .write _ => receiveRank system.queue.length + 1

theorem receiveRank_le (queued : Nat) : receiveRank queued ≤ 3 * queued + 3 := by
  unfold receiveRank
  split_ifs <;> omega

theorem rank_le (system : EepromSystem) : system.rank ≤ 3 * system.queue.length + 5 := by
  have received := receiveRank_le system.queue.length
  unfold EepromSystem.rank
  cases system.point <;> dsimp only <;> omega

theorem rank_eq_zero {system : EepromSystem} (exhausted : system.rank = 0) :
    system.point = .receive ∧ system.queue = [] := by
  unfold EepromSystem.rank at exhausted
  cases point : system.point with
  | receive =>
      rw [point] at exhausted
      dsimp only [receiveRank] at exhausted
      split_ifs at exhausted with none
      exact ⟨rfl, List.length_eq_zero_iff.mp none⟩
  | _ =>
      rw [point] at exhausted
      dsimp only at exhausted
      omega

/-- Every step of a task that is not idle lowers the rank. -/
theorem taskStep_rank (system : EepromSystem) : system.taskStep.rank ≤ system.rank - 1 := by
  cases point : system.point with
  | receive =>
      cases queue : system.queue with
      | nil => simp [EepromSystem.taskStep, EepromSystem.rank, point, queue, receiveRank]
      | cons request rest =>
          simp [EepromSystem.taskStep, EepromSystem.rank, point, queue, receiveRank]
          omega
  | process request dirty =>
      have rank : system.rank = 3 * system.queue.length + 5 := by rw [EepromSystem.rank, point]
      rw [rank, EepromSystem.taskStep, point]
      rcases processStep_cases system.manager request dirty with
        ⟨-, moved⟩ | ⟨-, moved | ⟨domain, idx, record, moved⟩⟩ <;>
          simp only [moved, EepromSystem.rank] <;> omega
  | apply domain idx record dirty =>
      have rank : system.rank = 3 * system.queue.length + 4 := by rw [EepromSystem.rank, point]
      obtain ⟨cache, log, frame⟩ := setStep_frame system none domain idx (some record)
      rw [rank, EepromSystem.taskStep, point]
      dsimp only
      generalize system.setStep none domain idx (some record) = outcome at frame ⊢
      rcases outcome with ⟨status | done, stored⟩
      · obtain rfl := frame
        exact Nat.le_refl _
      · obtain rfl := frame
        exact Nat.le_refl _
  | drain dirty =>
      have rank : system.rank = 3 * system.queue.length + 3 := by rw [EepromSystem.rank, point]
      rw [rank, EepromSystem.taskStep, point]
      cases queue : system.queue with
      | nil => cases dirty <;> simp [EepromSystem.rank, receiveRank]
      | cons request rest =>
          simp only [EepromSystem.rank, List.length_cons]
          omega
  | encode =>
      have rank : system.rank = receiveRank system.queue.length + 2 := by
        rw [EepromSystem.rank, point]
      rw [rank, EepromSystem.taskStep, point]
      dsimp only
      rcases configSaveEncode system.manager with ⟨status | blobLen, manager⟩ <;>
        simp only [EepromSystem.rank] <;> omega
  | write blobLen =>
      have rank : system.rank = receiveRank system.queue.length + 1 := by
        rw [EepromSystem.rank, point]
      rw [rank, EepromSystem.taskStep, point]
      simp only [EepromSystem.rank]
      omega

/-! Runs without new requests. -/

def SystemAction.turn : SystemAction → Bool
  | .eepromTask => true
  | _ => false

/-- A step that queues nothing. -/
def SystemAction.quiet : SystemAction → Bool
  | .set _ _ _ _ => true
  | .eepromTask => true
  | _ => false

theorem systemStep_rank (system : EepromSystem) {action : SystemAction}
    (quiet : action.quiet = true) : (systemStep system action).rank ≤ system.rank := by
  cases action with
  | set task domain idx input =>
      obtain ⟨cache, log, frame⟩ :=
        setStep_frame system (some task) domain (requestIndex domain idx) input
      rw [systemStep, frame]
      exact Nat.le_refl _
  | eepromTask => exact (taskStep_rank system).trans (Nat.sub_le _ _)
  | _ => cases quiet

/-- The queue of a system is never longer than it was created. -/
def QueueBounded (system : EepromSystem) : Prop := system.queue.length ≤ eepromQueueDepth

theorem QueueBounded.step {system : EepromSystem} (bounded : QueueBounded system)
    (action : SystemAction) : QueueBounded (systemStep system action) := by
  have effect := systemStep_effect system action
  generalize systemStep system action = next at effect ⊢
  cases effect with
  | moved queue point log room => exact room.elim (fun less => less.trans bounded) id
  | called task domain idx input point =>
      obtain ⟨cache, log, frame⟩ := setStep_frame system task domain idx input
      rw [frame]
      exact bounded
  | encoded blobBuf point => exact bounded
  | written blobLen here => exact bounded

theorem queueBounded_run {system : EepromSystem} (bounded : QueueBounded system)
    (actions : List SystemAction) : QueueBounded (Machine.run systemStep system actions) := by
  have preserved : ∀ system action, True → QueueBounded system →
      QueueBounded (systemStep system action) :=
    fun _ action _ within => within.step action
  exact Machine.run_invariant systemStep bounded preserved fun _ _ => trivial

theorem queueBounded_epochs {m : Manager} (epochs : List PowerEpoch) :
    QueueBounded (Machine.run powerEpoch (.boot m) epochs) := by
  have preserved : ∀ system epoch, True → QueueBounded system →
      QueueBounded (powerEpoch system epoch) := fun _ _ _ _ => Nat.zero_le _
  exact Machine.run_invariant powerEpoch (Nat.zero_le _) preserved fun _ _ => trivial

theorem saves_run_le (system : EepromSystem) (actions : List SystemAction) :
    (Machine.run systemStep system actions).saves ≤ system.saves + actions.length := by
  induction actions generalizing system with
  | nil => exact Nat.le_refl _
  | cons action actions ih =>
      have now : (systemStep system action).saves ≤ system.saves + 1 := by
        rcases systemStep_storage system action with ⟨-, kept⟩ | ⟨blobLen, -, -, counted⟩
        · exact kept ▸ Nat.le_succ _
        · exact counted.le
      have rest := ih (systemStep system action)
      rw [Machine.run_cons, List.length_cons]
      omega

/-- As many turns without new requests as are always enough. -/
theorem blocked_after_turns {system : EepromSystem} (bounded : QueueBounded system)
    {turns : List SystemAction} (quiet : ∀ action ∈ turns, action.quiet = true)
    (enough : 3 * eepromQueueDepth + 5 ≤ turns.countP SystemAction.turn) :
    (Machine.run systemStep system turns).point = .receive ∧
      (Machine.run systemStep system turns).queue = [] := by
  refine rank_eq_zero (Machine.run_exhausts systemStep
    (fun state action => systemStep_rank state) ?_ quiet
    ((rank_le system).trans (le_trans (by rw [QueueBounded] at bounded; omega) enough)))
  intro state action turn
  cases action with
  | eepromTask => exact taskStep_rank state
  | _ => cases turn

/-- Once `eeprom_task` has had enough turns without new requests it is idle, and every
commit accepted before them survives a power failure at any later moment. -/
theorem commits_safe_after_turns {m : Manager} (fresh : m.initialised = false)
    (epochs : List PowerEpoch) {booted system settled live : EepromSystem}
    (started : booted = Machine.run powerEpoch (.boot m) epochs) (before : List SystemAction)
    (reached : system = Machine.run systemStep booted before) {turns : List SystemAction}
    (quiet : ∀ action ∈ turns, action.quiet = true)
    (enough : 3 * eepromQueueDepth + 5 ≤ turns.countP SystemAction.turn)
    (taken : settled = Machine.run systemStep system turns) (later : List SystemAction)
    (onward : live = Machine.run systemStep settled later) (ending : SlotWriteEnd)
    (few : (live.powerCycle ending).saves < 2 ^ 32) :
    settled.point = .receive ∧ settled.queue = [] ∧
      ∃ kept, kept <+: live.log ∧
        (∀ i task, system.log[i]? = some (.commit task) → system.log.take (i + 1) <+: kept) ∧
        (live.powerCycle ending).manager.cache = replay booted.manager.cache kept := by
  have bounded : QueueBounded system := by
    rw [reached, started]
    exact queueBounded_run (queueBounded_epochs epochs) before
  obtain ⟨blocked, empty⟩ := taken ▸ blocked_after_turns bounded quiet enough
  have within : live.saves < 2 ^ 32 := (saves_le_powerLoss live ending).trans_lt few
  have early : booted.saves ≤ system.saves := reached ▸ saves_le_run booted before
  have mid : system.saves ≤ settled.saves := taken ▸ saves_le_run system turns
  have late : settled.saves ≤ live.saves := onward ▸ saves_le_run settled later
  obtain ⟨valid, running⟩ := (started ▸ booted_run fresh epochs : Booted booted) (by omega)
  obtain ⟨state, -, there⟩ := running.run before
  rw [← reached] at there
  obtain ⟨next, steps, idle⟩ := there.run turns
  rw [← taken] at idle
  obtain ⟨kept, inside, accepted, stored, commits⟩ :=
    idle.epoch blocked empty later ending onward few
  obtain ⟨loaded, -⟩ :=
    @Stored.running _ _ _ stored (replay_valid valid accepted) .powerUp rfl
  refine ⟨blocked, empty, kept, inside, fun i task found => ?_, loaded⟩
  obtain ⟨rest, grown⟩ := (there.covers.run_grows steps).2
  rw [there.refines.log, idle.refines.log] at grown
  have inside : i < system.log.length := (List.getElem?_eq_some_iff.mp found).1
  rw [← grown] at commits
  have promised := commits i task (by rw [List.getElem?_append_left inside]; exact found)
  rwa [List.take_append_of_le_length inside] at promised

/-- A record stored and committed, and as many turns as are always enough. -/
def requestedSystem : EepromSystem :=
  Machine.run systemStep (.boot .powerUp) [.set 0 .system 0 (some committedRecord), .queueCommit 0]

def settledSystem : EepromSystem :=
  Machine.run systemStep requestedSystem (List.replicate 53 .eepromTask)

theorem commits_safe_after_turns_single :
    settledSystem.point = .receive ∧ settledSystem.queue = [] ∧
      ∃ kept, kept <+: settledSystem.log ∧
        (∀ i task, requestedSystem.log[i]? = some (.commit task) →
          requestedSystem.log.take (i + 1) <+: kept) ∧
        (settledSystem.powerCycle .completed).manager.cache =
          replay (EepromSystem.boot .powerUp).manager.cache kept :=
  have first : requestedSystem.saves ≤ 0 + 2 := saves_run_le (.boot .powerUp) _
  have second : settledSystem.saves ≤ requestedSystem.saves + (List.replicate 53 _).length :=
    saves_run_le requestedSystem _
  have few : (settledSystem.powerCycle .completed).saves < 2 ^ 32 := by
    have last := powerCycle_saves_le settledSystem .completed
    rw [List.length_replicate] at second
    omega
  @commits_safe_after_turns .powerUp rfl [] (.boot .powerUp) requestedSystem settledSystem
    settledSystem (Machine.run_nil powerEpoch _).symm _ (by rw [requestedSystem])
    (List.replicate 53 .eepromTask) (by simp [SystemAction.quiet]) (by decide)
    (by rw [settledSystem]) [] (Machine.run_nil systemStep _).symm .completed few

/-! Producers that keep committing. -/

/-- A call of a setter. -/
structure ProducerStore where
  domain : Domain
  idx : UInt8
  input : Option domain.Record

/-- A producer stores and commits again and again, each time before `eeprom_task` finds its
queue empty. -/
def starvingActions (task : Nat) (stores : List ProducerStore) : List SystemAction :=
  stores.flatMap fun store =>
    [.set task store.domain store.idx store.input, .queueCommit task, .eepromTask, .eepromTask]

def commitsOf (log : ConfigLog) : ConfigLog :=
  log.filter fun entry =>
    match entry with
    | .store _ => false
    | .commit _ => true

theorem commitsOf_append (log more : ConfigLog) :
    commitsOf (log ++ more) = commitsOf log ++ commitsOf more := List.filter_append ..

theorem commitsOf_storeEntry (task : Option Nat) (domain : Domain) (idx : UInt8)
    (input : Option domain.Record) : commitsOf (storeEntry task domain idx input) = [] := by
  cases input with
  | none => rfl
  | some record =>
      rw [storeEntry]
      split_ifs <;> rfl

/-- Nothing to take from the queue, and no save under way. -/
structure Starved (system : EepromSystem) : Prop where
  empty : system.queue = []
  waiting : system.point = .receive ∨ ∃ dirty, system.point = .drain dirty

theorem setStep_commits (system : EepromSystem) (task : Option Nat) (domain : Domain)
    (idx : UInt8) (input : Option domain.Record) :
    ∃ manager log, (system.setStep task domain idx input).2 = { system with manager, log } ∧
      commitsOf log = commitsOf system.log := by
  rw [EepromSystem.setStep]
  rcases configSetRecord domain system.manager idx input with ⟨status | done, manager⟩
  · exact ⟨manager, system.log, rfl, rfl⟩
  · refine ⟨manager, _, rfl, ?_⟩
    rw [commitsOf_append, commitsOf_storeEntry, List.append_nil]

theorem starved_round {system : EepromSystem} (starved : Starved system) (task : Nat)
    (store : ProducerStore) {next : EepromSystem}
    (reached : next = Machine.run systemStep system (starvingActions task [store])) :
    Starved next ∧ next.storage = system.storage ∧ next.saves = system.saves ∧
      commitsOf next.log = commitsOf system.log ++ [.commit task] := by
  obtain ⟨empty, waiting⟩ := starved
  obtain ⟨manager, log, stored, commits⟩ := setStep_commits system (some task) store.domain
    (requestIndex store.domain store.idx) store.input
  have set : systemStep system (.set task store.domain store.idx store.input) =
      { system with manager, log } := stored
  have queued : systemStep { system with manager, log } (.queueCommit task) =
      { system with manager, queue := [.commit], log := log ++ [.commit task] } := by
    rw [systemStep, queueConfigCommit, xQueueSend, empty, if_pos (by decide)]
    rfl
  have taken : ∃ dirty, systemStep
      { system with manager, queue := [.commit], log := log ++ [.commit task] } .eepromTask =
        { system with
          manager
          queue := []
          point := .process .commit dirty
          log := log ++ [.commit task] } := by
    rcases waiting with here | ⟨dirty, here⟩
    · exact ⟨false, by rw [systemStep, EepromSystem.taskStep, here]⟩
    · exact ⟨dirty, by rw [systemStep, EepromSystem.taskStep, here]⟩
  obtain ⟨dirty, taken⟩ := taken
  have whole : next =
      { system with
        manager
        queue := []
        point := .drain true
        log := log ++ [.commit task] } := by
    rw [reached, starvingActions, List.flatMap_singleton, Machine.run_cons, set,
      Machine.run_cons, queued, Machine.run_cons, taken]
    rfl
  rw [whole]
  exact ⟨⟨rfl, .inr ⟨true, rfl⟩⟩, rfl, rfl, by rw [commitsOf_append, commits]; rfl⟩

/-- Nothing bounds how long a save is put off. However many stores a producer commits, with
two turns of `eeprom_task` for each, all of them may be accepted and none of them safe. -/
theorem commits_starved {system : EepromSystem} (blocked : system.point = .receive)
    (empty : system.queue = []) (task : Nat) (stores : List ProducerStore)
    {after : EepromSystem}
    (reached : after = Machine.run systemStep system (starvingActions task stores))
    (ending : SlotWriteEnd) :
    commitsOf after.log = commitsOf system.log ++ List.replicate stores.length (.commit task) ∧
      after.powerCycle ending = system.powerCycle ending := by
  have idle : Starved system := ⟨empty, .inl blocked⟩
  have rounds : ∀ (before : List ProducerStore), ∀ now,
      now = Machine.run systemStep system (starvingActions task before) →
        Starved now ∧ now.storage = system.storage ∧ now.saves = system.saves ∧
          commitsOf now.log =
            commitsOf system.log ++ List.replicate before.length (.commit task) := by
    intro before
    induction before using List.reverseRecOn with
    | nil =>
        rintro _ rfl
        exact ⟨idle, rfl, rfl, (List.append_nil _).symm⟩
    | append_singleton before store ih =>
        rintro _ rfl
        obtain ⟨starved, storage, saves, commits⟩ := ih _ rfl
        obtain ⟨next, kept, counted, logged⟩ := starved_round starved task store rfl
        have split : starvingActions task (before ++ [store]) =
            starvingActions task before ++ starvingActions task [store] := List.flatMap_append
        rw [split, Machine.run_append]
        refine ⟨next, kept.trans storage, counted.trans saves, ?_⟩
        rw [logged, commits, List.append_assoc, List.length_append, List.length_singleton,
          List.replicate_succ']
  obtain ⟨⟨-, waiting⟩, storage, saves, commits⟩ := rounds stores after reached
  refine ⟨commits, ?_⟩
  have lost : after.powerLoss ending = (after.storage, after.saves) := by
    rcases waiting with here | ⟨dirty, here⟩ <;> rw [EepromSystem.powerLoss, here]
  have kept : system.powerLoss ending = (system.storage, system.saves) := by
    rw [EepromSystem.powerLoss, blocked]
  rw [EepromSystem.powerCycle, EepromSystem.powerCycle, lost, kept, storage, saves]

theorem commits_starved_thousand :
    commitsOf (Machine.run systemStep (.boot .powerUp)
        (starvingActions 0 (List.replicate 1000 ⟨.system, 0, some committedRecord⟩))).log =
      commitsOf (EepromSystem.boot .powerUp).log ++
        List.replicate (List.replicate 1000 (⟨.system, 0, some committedRecord⟩ :
          ProducerStore)).length (.commit 0) ∧
      (Machine.run systemStep (.boot .powerUp)
        (starvingActions 0 (List.replicate 1000 ⟨.system, 0, some committedRecord⟩))).powerCycle
          .completed = (EepromSystem.boot .powerUp).powerCycle .completed :=
  commits_starved rfl rfl 0 _ rfl .completed

end ConfigWp
