import ConfigWp.Application.EepromTask
import ConfigWp.Application.Persistence
import ConfigWp.Application.SlotFaults
import ConfigWp.Library.Coalescing
import Mathlib.Logic.Relation

/-! Coalescing in `eeprom_task`. A turn of the task receives a batch of requests and ends
with one save when the batch changed something. However a sequence of requests falls into
batches, the cache comes out the same, and so does what the next boot reads. -/

set_option autoImplicit false

namespace ConfigWp

open Coalescing (Memory)

/-! The encoding of a state. What lies in the payload buffer before does not show in it. -/

/-- Writers over buffers of one size with the same bytes written. -/
structure TlvWriter.Alike (w v : TlvWriter) : Prop where
  cap : w.cap = v.cap
  written : w.written = v.written

theorem TlvWriter.Alike.used {w v : TlvWriter} (alike : w.Alike v) : w.used = v.used := by
  rw [← w.length_written, alike.written, v.length_written]

theorem TlvWriter.Alike.advance {w v : TlvWriter} (alike : w.Alike v) {data : List UInt8}
    (roomW : w.used + data.length ≤ w.cap) (roomV : v.used + data.length ≤ v.cap) :
    (w.advance data roomW).Alike (v.advance data roomV) where
  cap := by rw [cap_advance, cap_advance, alike.cap]
  written := by rw [written_advance, written_advance, alike.written]

/-- The same result, and writers that are alike. -/
def SameOutcome {α : Type} (left right : α × TlvWriter) : Prop :=
  left.1 = right.1 ∧ left.2.Alike right.2

theorem SameOutcome.split {α : Type} {left right : α × TlvWriter} (same : SameOutcome left right) :
    ∃ result w v, left = (result, w) ∧ right = (result, v) ∧ w.Alike v :=
  ⟨left.1, left.2, right.2, rfl, Prod.ext same.1.symm rfl, same.2⟩

theorem tlvWriterEmit_alike {w v : TlvWriter} (alike : w.Alike v) (tag : UInt16)
    (value : TlvSource) : SameOutcome (tlvWriterEmit w tag value) (tlvWriterEmit v tag value) := by
  have shorter := value.length_data_le
  have used := alike.used
  have cap := alike.cap
  simp only [tlvWriterEmit, cap, used]
  split_ifs with unusable missing large room
  · exact ⟨rfl, alike⟩
  · exact ⟨rfl, alike⟩
  · exact ⟨rfl, alike⟩
  · have size := length_tlvRecordBytes tag value.data
    exact ⟨rfl, alike.advance (by omega) (by omega)⟩
  · exact ⟨rfl, alike⟩

theorem tlvWriterEmitRaw_alike {w v : TlvWriter} (alike : w.Alike v) (record : TlvSource) :
    SameOutcome (tlvWriterEmitRaw w record) (tlvWriterEmitRaw v record) := by
  have shorter := record.length_data_le
  have used := alike.used
  have cap := alike.cap
  simp only [tlvWriterEmitRaw, cap, used]
  split_ifs with unusable short torn room
  · exact ⟨rfl, alike⟩
  · exact ⟨rfl, alike⟩
  · exact ⟨rfl, alike⟩
  · exact ⟨rfl, alike.advance (by omega) (by omega)⟩
  · exact ⟨rfl, alike⟩

theorem emitRecordLocked_alike {w v : TlvWriter} (alike : w.Alike v) (key : RecordKey)
    (record : key.domain.Record) :
    SameOutcome (emitRecordLocked w key record) (emitRecordLocked v key record) := by
  rw [emitRecordLocked, emitRecordLocked]
  rcases configCodecEncode key.domain record (List.replicate valueBufBytes 0) with
    ⟨status | valueSize, valueBuf⟩
  · exact ⟨rfl, alike⟩
  · have emitted := tlvWriterEmit_alike alike key.tag (.bytes (valueBuf.take valueSize))
    obtain ⟨status, first, second, left, right, next⟩ := emitted.split
    dsimp only
    rw [left, right]
    rcases status with status | done
    · cases status <;> exact ⟨rfl, next⟩
    · exact ⟨rfl, next⟩

theorem emitRecordsLocked_alike (cache : ConfigCache) (keys : List RecordKey) {w v : TlvWriter}
    (alike : w.Alike v) :
    SameOutcome (emitRecordsLocked cache keys w) (emitRecordsLocked cache keys v) := by
  induction keys generalizing w v with
  | nil => exact ⟨rfl, alike⟩
  | cons key keys ih =>
      have emitted := emitRecordLocked_alike alike key (cache.get key)
      obtain ⟨status, first, second, left, right, next⟩ := emitted.split
      rw [emitRecordsLocked, emitRecordsLocked, left, right]
      rcases status with status | done
      · exact ⟨rfl, next⟩
      · exact ih next

theorem reemitUnknownLoop_alike (unknown : UnknownStore) (fuel cursor : Nat) {w v : TlvWriter}
    (alike : w.Alike v) :
    SameOutcome (reemitUnknownLoop unknown fuel cursor w)
      (reemitUnknownLoop unknown fuel cursor v) := by
  induction fuel generalizing cursor w v with
  | zero => exact ⟨rfl, alike⟩
  | succ fuel ih =>
      simp only [reemitUnknownLoop]
      split_ifs with ended torn overrun
      · exact ⟨rfl, alike⟩
      · exact ⟨rfl, alike⟩
      · exact ⟨rfl, alike⟩
      · have emitted := tlvWriterEmitRaw_alike alike (.bytes (Splice.window unknown.buf cursor
          (tlvHeaderBytes + (LittleEndian.read16 (unknown.buf.drop (cursor + 2))).toNat)))
        obtain ⟨status, first, second, left, right, next⟩ := emitted.split
        rw [left, right]
        rcases status with status | done
        · cases status <;> exact ⟨rfl, next⟩
        · exact ih _ next

/-- The payload a save of the state would write, if the state can be encoded. -/
def Manager.encoding (m : Manager) : Option (List UInt8) :=
  let encoded := encodeCacheLocked m.cache m.unknown m.blobBuf.bytes
  match encoded.1 with
  | .error _ => none
  | .ok blobLen => some (encoded.2.take blobLen)

/-- Managers that differ in the payload buffer at most. -/
structure Manager.Agrees (m n : Manager) : Prop where
  cache : m.cache = n.cache
  unknown : m.unknown = n.unknown
  initialised : m.initialised = n.initialised

theorem Manager.Agrees.encoding {m n : Manager} (agrees : m.Agrees n) :
    m.encoding = n.encoding := by
  have start : (tlvWriterInit m.blobBuf.bytes).Alike (tlvWriterInit n.blobBuf.bytes) :=
    ⟨m.blobBuf.size_eq.trans n.blobBuf.size_eq.symm,
      (TlvWriter.written_init _).trans (TlvWriter.written_init _).symm⟩
  obtain ⟨status, first, second, left, right, next⟩ :=
    (emitRecordsLocked_alike n.cache recordKeys start).split
  rw [Manager.encoding, Manager.encoding, encodeCacheLocked, encodeCacheLocked, agrees.cache,
    agrees.unknown, left, right]
  rcases status with status | done
  · rfl
  · obtain ⟨status, first, second, left, right, last⟩ :=
      (reemitUnknownLoop_alike n.unknown n.unknown.used 0 next).split
    rw [← reemitUnknownLocked] at left right
    dsimp only
    rw [left, right]
    rcases status with status | done
    · rfl
    · exact congrArg some last.written

/-! Processing a request looks at the cache, not at the payload buffer. -/

theorem configGetRecord_agrees {m n : Manager} (agrees : m.Agrees n) (domain : Domain)
    (idx : UInt8) : configGetRecord domain m idx = configGetRecord domain n idx := by
  rw [configGetRecord, configGetRecord, agrees.initialised, agrees.cache]

theorem configSetRecord_agrees {m n : Manager} (agrees : m.Agrees n) (domain : Domain)
    (idx : UInt8) (input : Option domain.Record) :
    (configSetRecord domain m idx input).1 = (configSetRecord domain n idx input).1 ∧
      (configSetRecord domain m idx input).2.Agrees (configSetRecord domain n idx input).2 := by
  have same := agrees.initialised
  unfold configSetRecord
  by_cases fresh : (!n.initialised) = true
  · rw [if_pos (same ▸ fresh), if_pos fresh]
    exact ⟨rfl, agrees⟩
  rw [if_neg (same ▸ fresh), if_neg fresh]
  cases input with
  | none => exact ⟨rfl, agrees⟩
  | some record =>
      by_cases inside : idx.toNat < domain.count
      · simp only [dif_pos inside]
        split_ifs
        · exact ⟨rfl, agrees⟩
        · exact ⟨rfl, congrArg (ConfigCache.set · ⟨domain, ⟨idx.toNat, inside⟩⟩ record)
            agrees.cache, agrees.unknown, same⟩
      · simp only [dif_neg inside]
        exact ⟨trivial, agrees⟩

theorem applyField_agrees {m n : Manager} (agrees : m.Agrees n) (type : UInt32) (item : UInt8)
    (param : UInt16) (value : EepromValue) :
    (applyField m type item param value).1 = (applyField n type item param value).1 ∧
      (applyField m type item param value).2.Agrees (applyField n type item param value).2 := by
  rw [applyField_eq, applyField_eq]
  cases eepromType? type with
  | none => exact ⟨rfl, agrees⟩
  | some domain =>
      dsimp only
      rw [applyRecord, applyRecord, configGetRecord_agrees agrees]
      cases configGetRecord domain n (requestIndex domain item) with
      | error status => exact ⟨rfl, agrees⟩
      | ok record =>
          dsimp only
          cases changeRecord domain value param record with
          | none => exact ⟨rfl, agrees⟩
          | some record => exact configSetRecord_agrees agrees domain _ _

theorem processRequest_agrees {m n : Manager} (agrees : m.Agrees n) (request : EepromRequest) :
    (processRequest m request).1 = (processRequest n request).1 ∧
      (processRequest m request).2.Agrees (processRequest n request).2 := by
  cases request with
  | commit => exact ⟨rfl, agrees⟩
  | field type item param value =>
      have applied := applyField_agrees agrees type item param value
      rw [processRequest, processRequest]
      generalize applyField m type item param value = left at applied ⊢
      generalize applyField n type item param value = right at applied ⊢
      obtain ⟨status, first⟩ := left
      obtain ⟨other, second⟩ := right
      obtain ⟨rfl, next⟩ := applied
      rcases status with status | done <;> exact ⟨rfl, next⟩

theorem drain_agrees {m n : Manager} (agrees : m.Agrees n) (batch : List EepromRequest) :
    (Coalescing.drain processRequest m batch).1 = (Coalescing.drain processRequest n batch).1 ∧
      (Coalescing.drain processRequest m batch).2.Agrees
        (Coalescing.drain processRequest n batch).2 := by
  induction batch generalizing m n with
  | nil => exact ⟨rfl, agrees⟩
  | cons request batch ih =>
      obtain ⟨flag, next⟩ := processRequest_agrees agrees request
      obtain ⟨flags, last⟩ := ih next
      rw [Coalescing.drain_cons, Coalescing.drain_cons, flag, flags]
      exact ⟨rfl, last⟩

/-- A commit, or a field change that is accepted. -/
def EepromRequest.Dirties (m : Manager) : EepromRequest → Prop
  | .commit => True
  | .field type item param value => (applyField m type item param value).1 = .ok ()

theorem processRequest_dirty_iff {m : Manager} {request : EepromRequest} :
    (processRequest m request).1 = true ↔ request.Dirties m := by
  cases request with
  | commit => exact ⟨fun _ => trivial, fun _ => rfl⟩
  | field type item param value =>
      rw [processRequest, EepromRequest.Dirties]
      generalize applyField m type item param value = outcome
      rcases outcome with ⟨status | done, next⟩ <;> simp

theorem applyField_refused {m : Manager} {type : UInt32} {item : UInt8} {param : UInt16}
    {value : EepromValue} {status : ConfigStatus}
    (refused : (applyField m type item param value).1 = .error status) :
    (applyField m type item param value).2 = m := by
  rw [applyField_eq] at refused ⊢
  cases known : eepromType? type with
  | none => rfl
  | some domain =>
      rw [known] at refused
      dsimp only at refused ⊢
      rw [applyRecord] at refused ⊢
      cases found : configGetRecord domain m (requestIndex domain item) with
      | error status => rfl
      | ok record =>
          rw [found] at refused
          dsimp only at refused ⊢
          cases changed : changeRecord domain value param record with
          | none => rfl
          | some next =>
              rw [changed] at refused
              dsimp only at refused ⊢
              have effect := configSetRecord_effect domain m (requestIndex domain item) (some next)
              generalize configSetRecord domain m (requestIndex domain item) (some next) = outcome
                at refused effect ⊢
              cases effect with
              | refused status => rfl
              | stored key record ready valid => cases refused

/-- A request that does not set the flag leaves the manager as it was. -/
theorem processRequest_honest : Coalescing.Honest processRequest := by
  intro m request clean
  cases request with
  | commit => cases clean
  | field type item param value =>
      have kept := @applyField_refused m type item param value
      rw [processRequest] at clean ⊢
      generalize applyField m type item param value = outcome at clean kept ⊢
      rcases outcome with ⟨status | done, next⟩
      · exact kept rfl
      · cases clean

/-! Turns of the task. -/

/-- One turn of the loop of `eeprom_task`: the requests it received are processed one after
the other, and the cache is saved if one of them set the flag. -/
def eepromTurn (device : Device) (batch : List EepromRequest) : Device :=
  let drained := Coalescing.drain processRequest device.manager batch
  if drained.1 then
    { storage := (configSave .none device.storage drained.2).2.1
      manager := (configSave .none device.storage drained.2).2.2 }
  else { device with manager := drained.2 }

/-- Every turn that saves succeeds, and finds no sequence number about to wrap. -/
def SavesSucceed (device : Device) : List (List EepromRequest) → Prop
  | [] => True
  | batch :: batches =>
      ((Coalescing.drain processRequest device.manager batch).1 = true →
        SeqUnwrapped device.storage ∧
          (configSave .none device.storage
            (Coalescing.drain processRequest device.manager batch).2).1 = .ok ()) ∧
        SavesSucceed (eepromTurn device batch) batches

theorem slotWrite_ok_bounds {faults : SlotWriteFaults} {storage : Storage} {payload : List UInt8}
    (written : (slotWrite faults storage payload).1 = .ok ()) :
    0 < payload.length ∧ payload.length ≤ slotPayloadMaxBytes := by
  rw [slotWrite] at written
  split_ifs at written with empty large
  exact ⟨Nat.pos_of_ne_zero empty, Nat.not_lt.mp large⟩

/-- After a save that succeeds the next boot reads the encoding of the state. -/
theorem configSave_boots {storage : Storage} {m : Manager} (below : SeqUnwrapped storage)
    (saved : (configSave .none storage m).1 = .ok ()) :
    ∃ payload, m.encoding = some payload ∧ ∀ buf, slotPayloadMaxBytes ≤ buf.length →
      Boots (configSave .none storage m).2.1 payload buf := by
  rw [configSave_eq_halves, configSaveEncode] at saved ⊢
  split_ifs at saved ⊢ with fresh
  rw [Manager.encoding]
  dsimp only at saved ⊢
  cases verdict : (encodeCacheLocked m.cache m.unknown m.blobBuf.bytes).1 with
  | error status =>
      simp only [verdict] at saved
      cases saved
  | ok blobLen =>
      simp only [verdict, configSaveWrite] at saved ⊢
      refine ⟨_, rfl, ?_⟩
      intro buf room
      generalize (encodeCacheLocked m.cache m.unknown m.blobBuf.bytes).2.take blobLen = payload
        at saved ⊢
      have written : (slotWrite .none storage payload).1 = .ok () := by
        generalize slotWrite .none storage payload = outcome at saved ⊢
        rcases outcome with ⟨status | done, after⟩
        · cases saved
        · rfl
      obtain ⟨nonempty, fits⟩ := slotWrite_ok_bounds written
      obtain ⟨-, boots⟩ := slotWrite_boots below ⟨payload, nonempty, fits⟩ room
      dsimp only at boots
      generalize slotWrite .none storage payload = outcome at boots ⊢
      rcases outcome with ⟨status | done, after⟩ <;> exact boots

/-! Where the saves of a run succeed. -/

/-- A ready manager whose preserved records leave the known ones room, over slots with
sequence numbers up to `made`. -/
structure Saving (made : Nat) (device : Device) : Prop where
  ready : device.manager.initialised = true
  holds : ∃ settings, device.manager.Holds settings
  room : device.manager.unknown.used ≤ preservedRoom
  stamps : ∀ id seq, (slotPair device.storage id).stamp? = some seq → seq.toNat ≤ made

theorem SetterRun.saving {made : Nat} {storage : Storage} {m next : Manager}
    (run : SetterRun m next) (saving : Saving made ⟨storage, m⟩) : Saving made ⟨storage, next⟩ := by
  obtain ⟨kept, still⟩ := run.frame
  obtain ⟨settings, -, bytes⟩ := saving.holds
  refine ⟨still.trans saving.ready, ⟨⟨next.cache, settings.preserved⟩, rfl, ?_⟩, ?_,
    saving.stamps⟩
  · exact kept ▸ bytes
  · exact kept ▸ saving.room

theorem drain_run (m : Manager) (batch : List EepromRequest) :
    SetterRun m (Coalescing.drain processRequest m batch).2 := by
  induction batch generalizing m with
  | nil => exact .refl
  | cons request batch ih =>
      rw [Coalescing.drain_cons]
      exact (processRequest_run m request).trans (ih _)

theorem Saving.unwrapped {made : Nat} {device : Device} (saving : Saving made device)
    (few : made + 1 < 2 ^ 32) : SeqUnwrapped device.storage := by
  intro id sane last
  have stamp : (slotPair device.storage id).stamp? = some 0xFFFFFFFF := by
    rw [slotPair, slotCopies_stamp, sane, last]
    rfl
  have limit : (0xFFFFFFFF : UInt32).toNat = 2 ^ 32 - 1 := by decide
  have small := saving.stamps id _ stamp
  rw [limit] at small
  omega

theorem Saving.saved {made : Nat} {device : Device} (saving : Saving made device) :
    (configSave .none device.storage device.manager).1 = .ok () := by
  obtain ⟨settings, holds⟩ := saving.holds
  exact (configSave_ok_iff saving.ready holds device.storage).mpr saving.room

theorem Saving.turn {made : Nat} {device : Device} (saving : Saving made device)
    (few : made + 1 < 2 ^ 32) (batch : List EepromRequest) :
    Saving (made + 1) (eepromTurn device batch) := by
  obtain ⟨ready, ⟨settings, holds⟩, room, stamps⟩ :=
    (drain_run device.manager batch).saving saving
  rw [eepromTurn]
  split_ifs
  · obtain ⟨cache, unknown, kept⟩ := configSave_keeps .none device.storage
      (Coalescing.drain processRequest device.manager batch).2
    have saved := (configSave_ok_iff ready holds device.storage).mpr room
    refine ⟨kept.trans ready, ⟨settings, holds.congr cache unknown⟩, unknown.symm ▸ room, ?_⟩
    dsimp only
    rw [configSave_commit ready holds saved]
    exact stamps_commit few stamps settings.payload
  · refine ⟨ready, ⟨settings, holds⟩, room, ?_⟩
    exact fun id seq stamp => (stamps id seq stamp).trans made.le_succ

/-- On such a device every turn saves, up to the wrap of the sequence numbers. -/
theorem Saving.succeeds {made : Nat} {device : Device} (saving : Saving made device)
    {batches : List (List EepromRequest)} (few : made + batches.length < 2 ^ 32) :
    SavesSucceed device batches := by
  induction batches generalizing made device with
  | nil => trivial
  | cons batch batches ih =>
      rw [List.length_cons] at few
      have drained := (drain_run device.manager batch).saving saving
      refine ⟨fun _ => ⟨saving.unwrapped (by omega), drained.saved⟩, ?_⟩
      exact ih (saving.turn (by omega) batch) (by omega)

theorem saving_atDefaults : Saving 0 ⟨storageInit, .atDefaults⟩ where
  ready := rfl
  holds := ⟨.defaults, rfl, rfl⟩
  room := Nat.zero_le _
  stamps id seq stamp := by
    rw [slotPair_erased id] at stamp
    cases stamp

/-! A turn is what the steps of the task come to when nothing arrives in between. -/

def TaskRuns : EepromSystem → EepromSystem → Prop :=
  Relation.ReflTransGen fun system next => system.taskStep = next

theorem taskRuns_process {system : EepromSystem} {request : EepromRequest} {dirty : Bool}
    (here : system.point = .process request dirty) :
    ∃ log, TaskRuns system
      { system with
        manager := (processRequest system.manager request).2
        point := .drain (dirty || (processRequest system.manager request).1)
        log } := by
  have first : system.taskStep =
      { system with point := EepromSystem.processStep system.manager request dirty } := by
    rw [EepromSystem.taskStep, here]
  have steps := processRequest_eq_steps system.manager request dirty
  rcases processStep_cases system.manager request dirty with
    ⟨-, drained⟩ | ⟨-, drained | ⟨domain, idx, record, applied⟩⟩
  · rw [drained] at first steps
    obtain ⟨same, kept⟩ := Prod.mk.inj steps
    rw [same, kept]
    exact ⟨system.log, .single first⟩
  · rw [drained] at first steps
    obtain ⟨same, kept⟩ := Prod.mk.inj steps
    rw [same, kept]
    exact ⟨system.log, .single first⟩
  · rw [applied] at first steps
    have effect : ∃ log, EepromSystem.taskStep
        { system with point := .apply domain idx record dirty } =
          { system with
            manager := (processRequest system.manager request).2
            point := .drain (dirty || (processRequest system.manager request).1)
            log } := by
      simp only [EepromSystem.taskStep, EepromSystem.setStep]
      dsimp only at steps
      generalize configSetRecord domain system.manager idx (some record) = outcome at steps ⊢
      rcases outcome with ⟨status | done, next⟩ <;>
      · obtain ⟨same, kept⟩ := Prod.mk.inj steps
        rw [same, kept]
        exact ⟨_, rfl⟩
    obtain ⟨log, second⟩ := effect
    exact ⟨log, .head first (.single second)⟩

theorem taskRuns_drain {system : EepromSystem} {dirty : Bool} (here : system.point = .drain dirty) :
    ∃ log, TaskRuns system
      { system with
        manager := (Coalescing.drainFrom processRequest dirty system.manager system.queue).2
        queue := []
        point :=
          .drain (Coalescing.drainFrom processRequest dirty system.manager system.queue).1
        log } := by
  obtain ⟨storage, manager, queue, point, log, saves⟩ := system
  dsimp only at here
  subst here
  induction queue generalizing manager dirty log with
  | nil => exact ⟨log, .refl⟩
  | cons request queue ih =>
      obtain ⟨sofar, processed⟩ := @taskRuns_process
        ⟨storage, manager, queue, .process request dirty, log, saves⟩ request dirty rfl
      obtain ⟨last, drained⟩ := @ih (dirty || (processRequest manager request).1)
        (processRequest manager request).2 sofar
      exact ⟨last, .head rfl (processed.trans drained)⟩

/-- The two halves of a save, with the outer receive behind them. -/
theorem taskRuns_save {system : EepromSystem} (here : system.point = .encode) :
    ∃ after, TaskRuns system after ∧ after.point = .receive ∧ after.queue = system.queue ∧
      (⟨after.storage, after.manager⟩ : Device) =
        { storage := (configSave .none system.storage system.manager).2.1
          manager := (configSave .none system.storage system.manager).2.2 } := by
  obtain ⟨storage, manager, queue, point, log, saves⟩ := system
  dsimp only at here
  subst here
  rw [configSave_eq_halves]
  cases encoded : configSaveEncode manager with
  | mk status encoding =>
      cases status with
      | error status =>
          have step : EepromSystem.taskStep ⟨storage, manager, queue, .encode, log, saves⟩ =
              ⟨storage, encoding, queue, .receive, log, saves⟩ := by
            simp only [EepromSystem.taskStep, encoded]
          exact ⟨_, .single step, rfl, rfl, rfl⟩
      | ok blobLen =>
          have step : EepromSystem.taskStep ⟨storage, manager, queue, .encode, log, saves⟩ =
              ⟨storage, encoding, queue, .write blobLen, log, saves⟩ := by
            simp only [EepromSystem.taskStep, encoded]
          exact ⟨_, .head step (.single rfl), rfl, rfl, rfl⟩

/-- A task that finds a batch in its queue, and nothing more while it is at it, makes the
turn over that batch. -/
theorem taskRuns_turn {system : EepromSystem} {request : EepromRequest}
    {batch : List EepromRequest} (here : system.point = .receive)
    (queued : system.queue = request :: batch) :
    ∃ after, TaskRuns system after ∧ after.point = .receive ∧ after.queue = [] ∧
      ⟨after.storage, after.manager⟩ =
        eepromTurn ⟨system.storage, system.manager⟩ (request :: batch) := by
  obtain ⟨storage, manager, queue, point, log, saves⟩ := system
  dsimp only at here queued
  subst here queued
  obtain ⟨sofar, processed⟩ := @taskRuns_process
    ⟨storage, manager, batch, .process request false, log, saves⟩ request false rfl
  obtain ⟨last, drained⟩ := @taskRuns_drain
    { storage
      manager := (processRequest manager request).2
      queue := batch
      point := .drain (false || (processRequest manager request).1)
      log := sofar
      saves } _ rfl
  have received : TaskRuns ⟨storage, manager, request :: batch, .receive, log, saves⟩ _ :=
    .head rfl (processed.trans drained)
  rw [eepromTurn]
  generalize whole : Coalescing.drain processRequest manager (request :: batch) = drain
  have same : Coalescing.drainFrom processRequest (false || (processRequest manager request).1)
      (processRequest manager request).2 batch = drain := whole
  rw [same] at received
  obtain ⟨flag, changed⟩ := drain
  cases flag with
  | false => exact ⟨_, received.tail rfl, rfl, rfl, rfl⟩
  | true =>
      have drained := received.tail (c := ⟨storage, changed, [], .encode, last, saves⟩) rfl
      obtain ⟨after, saved, point, queue, device⟩ := @taskRuns_save
        ⟨storage, changed, [], .encode, last, saves⟩ rfl
      exact ⟨after, drained.trans saved, point, queue, device⟩

/-- The device against the abstract worker: the manager is the current state up to the
payload buffer, and the storage holds the encoding of the state saved last. -/
structure Coalesces (origin : Storage) (device : Device) (memory : Memory Manager) : Prop where
  current : device.manager.Agrees memory.current
  untouched : memory.saved = none → device.storage = origin
  saved : ∀ m, memory.saved = some m → ∃ payload, m.encoding = some payload ∧
    ∀ buf, slotPayloadMaxBytes ≤ buf.length → Boots device.storage payload buf

theorem Coalesces.turn {origin : Storage} {device : Device} {memory : Memory Manager}
    (coalesces : Coalesces origin device memory) {batch : List EepromRequest}
    (succeeds : (Coalescing.drain processRequest device.manager batch).1 = true →
      SeqUnwrapped device.storage ∧
        (configSave .none device.storage
          (Coalescing.drain processRequest device.manager batch).2).1 = .ok ()) :
    Coalesces origin (eepromTurn device batch)
      (Coalescing.turn processRequest memory batch) := by
  obtain ⟨flag, agrees⟩ := drain_agrees coalesces.current batch
  rw [eepromTurn, Coalescing.turn, ← flag]
  cases dirty : (Coalescing.drain processRequest device.manager batch).1 with
  | false => exact ⟨agrees, coalesces.untouched, coalesces.saved⟩
  | true =>
      obtain ⟨below, succeeded⟩ := succeeds dirty
      obtain ⟨payload, encoding, boots⟩ := configSave_boots below succeeded
      obtain ⟨cache, unknown, initialised⟩ := configSave_keeps .none device.storage
        (Coalescing.drain processRequest device.manager batch).2
      refine ⟨⟨cache.trans agrees.cache, unknown.trans agrees.unknown,
        initialised.trans agrees.initialised⟩,
        fun absent => absurd absent (Option.some_ne_none _), ?_⟩
      rintro m same
      obtain rfl := Option.some.inj same
      exact ⟨payload, agrees.encoding ▸ encoding, boots⟩

theorem Coalesces.run {origin : Storage} {device : Device} {memory : Memory Manager}
    (coalesces : Coalesces origin device memory) {batches : List (List EepromRequest)}
    (succeeds : SavesSucceed device batches) :
    Coalesces origin (batches.foldl eepromTurn device)
      (Coalescing.turn processRequest memory batches.flatten) := by
  rw [← Coalescing.run_eq_turn processRequest_honest]
  induction batches generalizing device memory with
  | nil => exact coalesces
  | cons batch batches ih => exact ih (coalesces.turn succeeds.1) succeeds.2

/-- Every request a batch of its own. -/
def separately (requests : List EepromRequest) : List (List EepromRequest) :=
  requests.map fun request => [request]

theorem flatten_separately (requests : List EepromRequest) :
    (separately requests).flatten = requests := by
  induction requests with
  | nil => rfl
  | cons request requests ih =>
      rw [separately, List.map_cons, List.flatten_cons, ← separately, ih, List.singleton_append]

theorem drain_dirties_iff {m : Manager} {requests : List EepromRequest} :
    (Coalescing.drain processRequest m requests).1 = true ↔
      ∃ earlier request later, requests = earlier ++ request :: later ∧
        request.Dirties (Coalescing.drain processRequest m earlier).2 := by
  rw [Coalescing.drain_dirty_iff]
  simp only [processRequest_dirty_iff]

/-- However the requests fall into batches, the cache ends as it does when each of them is
saved on its own, and so does what the next boot reads: the encoding of that cache if one
of the requests was a commit or was accepted, and what was stored before otherwise. -/
theorem eepromTurns_outcome {device : Device} {batches : List (List EepromRequest)}
    (succeeds : SavesSucceed device batches)
    (separate : SavesSucceed device (separately batches.flatten)) :
    (batches.foldl eepromTurn device).manager.cache =
        ((separately batches.flatten).foldl eepromTurn device).manager.cache ∧
      ((∃ earlier request later, batches.flatten = earlier ++ request :: later ∧
          request.Dirties (Coalescing.drain processRequest device.manager earlier).2) →
        ∃ payload, (batches.foldl eepromTurn device).manager.encoding = some payload ∧
          ∀ buf, slotPayloadMaxBytes ≤ buf.length →
            Boots (batches.foldl eepromTurn device).storage payload buf ∧
            Boots ((separately batches.flatten).foldl eepromTurn device).storage payload buf) ∧
      ((¬∃ earlier request later, batches.flatten = earlier ++ request :: later ∧
          request.Dirties (Coalescing.drain processRequest device.manager earlier).2) →
        (batches.foldl eepromTurn device).storage = device.storage ∧
          ((separately batches.flatten).foldl eepromTurn device).storage = device.storage) := by
  have start : Coalesces device.storage device ⟨device.manager, none⟩ :=
    ⟨⟨rfl, rfl, rfl⟩, fun _ => rfl, fun _ absent => nomatch absent⟩
  have batched := start.run succeeds
  have single := start.run separate
  rw [flatten_separately] at single
  refine ⟨batched.current.cache.trans single.current.cache.symm, ?_, ?_⟩
  · intro changed
    rw [← drain_dirties_iff] at changed
    have saved : (Coalescing.turn processRequest ⟨device.manager, none⟩ batches.flatten).saved =
        some (Coalescing.drain processRequest device.manager batches.flatten).2 := if_pos changed
    obtain ⟨payload, encoding, boots⟩ := batched.saved _ saved
    obtain ⟨other, same, reads⟩ := single.saved _ saved
    obtain rfl := Option.some.inj (encoding.symm.trans same)
    exact ⟨payload, batched.current.encoding.trans encoding,
      fun buf room => ⟨boots buf room, reads buf room⟩⟩
  · intro clean
    rw [← drain_dirties_iff] at clean
    have kept : (Coalescing.turn processRequest ⟨device.manager, none⟩ batches.flatten).saved =
        none := if_neg clean
    exact ⟨batched.untouched kept, single.untouched kept⟩

/-- A field request that is accepted and one of no type; then a commit, and a node id out
of range. -/
def nodeBatches : List (List EepromRequest) :=
  [[.field 7 0 0 ⟨.ofBytes [5]⟩, .field 99 0 0 ⟨.ofBytes [5]⟩],
    [.commit, .field 7 0 0 ⟨.ofBytes [200]⟩]]

theorem eepromTurns_outcome_node :
    (applyField .atDefaults 7 0 0 ⟨.ofBytes [5]⟩).1 = .ok () ∧
      (nodeBatches.foldl eepromTurn ⟨storageInit, .atDefaults⟩).manager.cache =
        ((separately nodeBatches.flatten).foldl eepromTurn
          ⟨storageInit, .atDefaults⟩).manager.cache ∧
      ∃ payload, (nodeBatches.foldl eepromTurn ⟨storageInit, .atDefaults⟩).manager.encoding =
          some payload ∧
        ∀ buf, slotPayloadMaxBytes ≤ buf.length →
          Boots (nodeBatches.foldl eepromTurn ⟨storageInit, .atDefaults⟩).storage payload buf ∧
          Boots ((separately nodeBatches.flatten).foldl eepromTurn
            ⟨storageInit, .atDefaults⟩).storage payload buf := by
  have accepted : (applyField .atDefaults 7 0 0 ⟨.ofBytes [5]⟩).1 = .ok () := by decide +kernel
  have batched : SavesSucceed ⟨storageInit, .atDefaults⟩ nodeBatches :=
    saving_atDefaults.succeeds (by decide)
  have separate : SavesSucceed ⟨storageInit, .atDefaults⟩ (separately nodeBatches.flatten) :=
    saving_atDefaults.succeeds (by decide)
  obtain ⟨cache, changed, -⟩ := eepromTurns_outcome batched separate
  exact ⟨accepted, cache, changed ⟨[], _, _, rfl, accepted⟩⟩

end ConfigWp
