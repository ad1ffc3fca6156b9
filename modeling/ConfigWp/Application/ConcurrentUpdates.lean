import ConfigWp.Application.FieldRequests
import ConfigWp.Application.ImportEntries
import ConfigWp.Library.ReadModifyWrite

/-! Two tasks that update one record at the same time. Each getter and each setter is a
critical section; the patch between them is local, so an update is two steps. -/

set_option autoImplicit false

namespace ConfigWp

open ReadModifyWrite

/-! One update. -/

/-- An entry of an import, or a field request. -/
inductive FieldUpdate (domain : Domain) where
  | entry (item : Json)
  | request (param : UInt16) (value : EepromValue)

section Updates

variable (undefined : Rat → Int32) {domain : Domain}

def FieldUpdate.patch : FieldUpdate domain → domain.Record → Option domain.Record
  | .entry item => patchRecord undefined domain item
  | .request param value => changeRecord domain value param

/-- The next critical section of an update: the getter, or the patch and the setter. -/
def criticalSection (update : FieldUpdate domain) (idx : UInt8) (m : Manager) :
    Phase domain.Record → Phase domain.Record × Manager
  | .start =>
      match configGetRecord domain m idx with
      | .error _ => (.done false, m)
      | .ok record => (.read record, m)
  | .read record =>
      match update.patch undefined record with
      | none => (.done false, m)
      | some record =>
          match configSetRecord domain m idx (some record) with
          | (.error _, m) => (.done false, m)
          | (.ok (), m) => (.done true, m)
  | .done accepted => (.done accepted, m)

/-- An update that runs alone. -/
def updateAlone (update : FieldUpdate domain) (idx : UInt8) (m : Manager) :
    Phase domain.Record × Manager :=
  let first := criticalSection undefined update idx m .start
  criticalSection undefined update idx first.2 first.1

/-- A field request is its two critical sections. -/
theorem updateAlone_request (m : Manager) (idx : UInt8) (param : UInt16) (value : EepromValue) :
    updateAlone undefined (.request param value : FieldUpdate domain) idx m =
      match applyRecord domain m idx (changeRecord domain value param) with
      | (.error _, m) => (.done false, m)
      | (.ok (), m) => (.done true, m) := by
  rw [updateAlone, criticalSection, applyRecord]
  cases configGetRecord domain m idx with
  | error status => rfl
  | ok record =>
      dsimp only
      rw [criticalSection, FieldUpdate.patch]
      cases changeRecord domain value param record <;> rfl

theorem configSetRecord_error {m m' : Manager} {idx : UInt8} {input : Option domain.Record}
    {status : ConfigStatus} (refused : configSetRecord domain m idx input = (.error status, m')) :
    m' = m := by
  cases input with
  | none =>
      unfold configSetRecord at refused
      split_ifs at refused <;> cases refused <;> rfl
  | some record =>
      unfold configSetRecord at refused
      split_ifs at refused with silent inside
      · cases refused
        rfl
      · dsimp only at refused
        split_ifs at refused
        · cases refused
          rfl
        · cases refused
      · cases refused
        rfl

theorem reject_rejected (state : Import) (text : String) :
    (state.reject text).report.rejected = state.report.rejected + 1 := by
  rw [Import.reject, ImportReport.reject, ImportReport.noteFirstError]
  dsimp only
  split_ifs <;> rfl

/-- An entry of an import is its two critical sections, reported as they end. -/
theorem updateAlone_entry (state : Import) (arrName : String) (idx : UInt8) (item : Json) :
    ∃ accepted manager,
      updateAlone undefined (.entry item : FieldUpdate domain) idx state.manager =
        (.done accepted, manager) ∧
      (applyChannel undefined domain arrName idx item state).manager = manager ∧
      if accepted then
        (applyChannel undefined domain arrName idx item state).report = state.report.accept
      else
        (applyChannel undefined domain arrName idx item state).report.rejected =
          state.report.rejected + 1 := by
  rw [updateAlone, criticalSection, applyChannel]
  cases configGetRecord domain state.manager idx with
  | error status => exact ⟨false, state.manager, rfl, rfl, rfl⟩
  | ok record =>
      dsimp only
      rw [criticalSection, FieldUpdate.patch]
      cases patchRecord undefined domain item record with
      | none => exact ⟨false, state.manager, rfl, rfl, reject_rejected _ _⟩
      | some new =>
          dsimp only
          cases outcome : configSetRecord domain state.manager idx (some new) with
          | mk status manager =>
              cases status with
              | error status =>
                  obtain rfl := configSetRecord_error outcome
                  exact ⟨false, state.manager, rfl, rfl, reject_rejected _ _⟩
              | ok done => exact ⟨true, manager, rfl, rfl, rfl⟩

theorem updateAlone_systemEntry (state : Import) (members : List (List UInt8 × Json)) :
    ∃ accepted manager,
      updateAlone undefined (.entry (.object members) : FieldUpdate .system) 0 state.manager =
        (.done accepted, manager) ∧
      (importSystem undefined (.object members) state).manager = manager ∧
      if accepted then
        (importSystem undefined (.object members) state).report = state.report.accept
      else
        (importSystem undefined (.object members) state).report.rejected =
          state.report.rejected + 1 := by
  rw [updateAlone, criticalSection, importSystem, configGetSystem_eq]
  cases configGetRecord .system state.manager 0 with
  | error status => exact ⟨false, state.manager, rfl, rfl, rfl⟩
  | ok record =>
      dsimp only
      rw [criticalSection, FieldUpdate.patch, patchRecord]
      cases patchSystemRecord undefined (.object members) record with
      | none => exact ⟨false, state.manager, rfl, rfl, reject_rejected _ _⟩
      | some new =>
          dsimp only
          rw [configSetSystem_eq]
          cases outcome : configSetRecord .system state.manager 0 (some new) with
          | mk status manager =>
              cases status with
              | error status =>
                  obtain rfl := configSetRecord_error outcome
                  exact ⟨false, state.manager, rfl, rfl, reject_rejected _ _⟩
              | ok done => exact ⟨true, manager, rfl, rfl, rfl⟩

/-! What an update assigns. -/

/-- The value an update gives a field: what the member of an entry reads as, or the
stored value of a request. -/
def FieldUpdate.assigned : FieldUpdate domain → domain.Field → Option FieldValue
  | .entry item, field =>
      match cJsonGetObjectItemCaseSensitive item (fieldKey domain field) with
      | none => none
      | some .null => none
      | some child => readField undefined (fieldKind domain field) child
  | .request param value, field =>
      if paramField domain param = some field then
        some (storedValue value (fieldKind domain field))
      else none

/-- An accepted update patches the record it read. -/
def FieldUpdate.store (update : FieldUpdate domain) (old : domain.Record) :
    Option domain.Record :=
  (update.patch undefined old).filter (validate domain)

theorem paramField_isSome {param : UInt16} {value : EepromValue} {old new : domain.Record}
    (changed : changeRecord domain value param old = some new) :
    ∃ field, paramField domain param = some field := by
  rw [← Option.isSome_iff_exists]
  cases domain <;> simp only [changeRecord, Option.map_eq_some_iff] at changed <;>
    obtain ⟨code, decoded, -⟩ := changed <;> simp [paramField, decoded]

theorem FieldUpdate.store_assigns (update : FieldUpdate domain) :
    Assigns (fieldOf domain) (update.store undefined) (update.assigned undefined) := by
  intro old new stored field
  have patched := (Option.filter_eq_some_iff.mp stored).1
  cases update with
  | entry item =>
      have shown := patchRecord_fields undefined patched field
      rw [patchedFieldOf, patchedField, patchField] at shown
      rw [FieldUpdate.assigned]
      cases found : cJsonGetObjectItemCaseSensitive item (fieldKey domain field) with
      | none =>
          rw [found] at shown
          exact (Option.some.inj shown).symm
      | some child =>
          rw [found] at shown
          cases child with
          | null => exact (Option.some.inj shown).symm
          | _ =>
              dsimp only at shown ⊢
              rw [shown, Option.getD_some]
  | request param value =>
      obtain ⟨named, paramNamed⟩ := paramField_isSome patched
      obtain ⟨built, change, fields⟩ := changeRecord_fields paramNamed value old
      obtain rfl := Option.some.inj (change.symm.trans patched)
      rw [fields field, FieldUpdate.assigned, paramNamed]
      by_cases same : field = named
      · subst same
        rw [if_pos rfl, if_pos rfl, Option.getD_some]
      · rw [if_neg same, if_neg (fun clash => same (Option.some.inj clash).symm), Option.getD_none]

/-! The tasks. -/

structure Tasks (domain : Domain) where
  manager : Manager
  phase : Party → Phase domain.Record

def Tasks.init (m : Manager) : Tasks domain := ⟨m, fun _ => .start⟩

def taskStep (updates : Party → FieldUpdate domain) (idx : UInt8) (tasks : Tasks domain)
    (party : Party) : Tasks domain :=
  let next := criticalSection undefined (updates party) idx tasks.manager (tasks.phase party)
  ⟨next.2, Function.update tasks.phase party next.1⟩

/-- The cached record and the tasks are a cell with two parties. -/
structure Simulates (key : RecordKey) (tasks : Tasks key.domain)
    (state : ReadModifyWrite.State key.domain.Record) : Prop where
  ready : tasks.manager.initialised = true
  cell : tasks.manager.cache.get key = state.cell
  phase : tasks.phase = state.phase

variable {undefined}

theorem criticalSection_turn {m : Manager} {idx : UInt8} (ready : m.initialised = true)
    (inside : idx.toNat < domain.count) (update : FieldUpdate domain)
    (phase : Phase domain.Record) :
    (criticalSection undefined update idx m phase).2.initialised = true ∧
      ((criticalSection undefined update idx m phase).1,
        (criticalSection undefined update idx m phase).2.cache.get ⟨domain, ⟨_, inside⟩⟩) =
        turn (update.store undefined) (m.cache.get ⟨domain, ⟨_, inside⟩⟩) phase := by
  cases phase with
  | start =>
      rw [criticalSection, configGetRecord_ready ready inside]
      exact ⟨ready, rfl⟩
  | done accepted => exact ⟨ready, rfl⟩
  | read record =>
      rw [criticalSection, turn, FieldUpdate.store]
      cases update.patch undefined record with
      | none => exact ⟨ready, rfl⟩
      | some new =>
          dsimp only
          rw [configSetRecord_ready ready inside, Option.filter_some]
          cases validate domain new with
          | false => exact ⟨ready, rfl⟩
          | true =>
              refine ⟨ready, Prod.ext rfl ?_⟩
              exact ConfigCache.get_set_same m.cache ⟨domain, ⟨idx.toNat, inside⟩⟩ new

theorem tasks_simulate {m : Manager} {idx : UInt8} (ready : m.initialised = true)
    (inside : idx.toNat < domain.count) (updates : Party → FieldUpdate domain)
    (order : List Party) :
    Simulates ⟨domain, ⟨_, inside⟩⟩
      (Machine.run (taskStep undefined updates idx) (.init m) order)
      (Machine.run (step fun party => (updates party).store undefined)
        (.init (m.cache.get ⟨domain, ⟨_, inside⟩⟩)) order) := by
  refine Machine.run_simulation (taskStep undefined updates idx)
    (fun _ => Simulates ⟨domain, ⟨_, inside⟩⟩) ⟨ready, rfl, rfl⟩ ?_
  intro seen party later tasks state split related
  have turned := @criticalSection_turn undefined domain tasks.manager idx related.ready inside
    (updates party) (tasks.phase party)
  rw [related.cell] at turned
  refine ⟨turned.1, ?_, ?_⟩
  · exact (congrArg Prod.snd turned.2).trans (by rw [related.phase]; rfl)
  · have moved := congrArg Prod.fst turned.2
    dsimp only at moved
    rw [taskStep, step, moved, related.phase]

variable (undefined) in
/-- Two accepted updates of disjoint fields are both in the record at the end exactly when
one ran before the other, or the overwritten one had set what was there before. -/
theorem concurrentUpdates_carried_iff {m : Manager} {idx : UInt8} (ready : m.initialised = true)
    (inside : idx.toNat < domain.count) {updates : Party → FieldUpdate domain}
    (disjoint : ∀ field, (updates .left).assigned undefined field = none ∨
      (updates .right).assigned undefined field = none)
    {order : List Party} (complete : Complete order)
    (accepted : ∀ party, (Machine.run (taskStep undefined updates idx) (.init m) order).phase
      party = .done true) :
    (∀ party, Agrees (fieldOf domain) ((updates party).assigned undefined)
      ((Machine.run (taskStep undefined updates idx) (.init m) order).manager.cache.get
        ⟨domain, ⟨_, inside⟩⟩)) ↔
      (Serial order ∨ ∀ last, order.getLast? = some last →
        Agrees (fieldOf domain) ((updates last.other).assigned undefined)
          (m.cache.get ⟨domain, ⟨_, inside⟩⟩)) := by
  have simulated := @tasks_simulate undefined domain m idx ready inside updates order
  rw [simulated.phase] at accepted
  rw [simulated.cell]
  exact agrees_both_iff (fun party => (updates party).store_assigns undefined) disjoint complete
    accepted

end Updates

/-- One task sets the debounce time of an input, the other its id. -/
def debounceAndId : Party → FieldUpdate .di
  | .left => .entry (.object [(ascii "channel", .number 0), (ascii "debounce_ms", .number 50)])
  | .right => .entry (.object [(ascii "channel", .number 0), (ascii "id", .number 7)])

def debounceAndIdRun (order : List Party) : Tasks .di :=
  Machine.run (taskStep (fun _ => int32Min) debounceAndId 0) (.init .atDefaults) order

theorem debounceAndId_disjoint (field : DiParam) :
    (debounceAndId .left).assigned (fun _ => int32Min) field = none ∨
      (debounceAndId .right).assigned (fun _ => int32Min) field = none := by
  cases field <;> decide +kernel

theorem debounceAndId_lost :
    Complete [.left, .right, .left, .right] ∧
      (∀ field, (debounceAndId .left).assigned (fun _ => int32Min) field = none ∨
        (debounceAndId .right).assigned (fun _ => int32Min) field = none) ∧
      (∀ party, (debounceAndIdRun [.left, .right, .left, .right]).phase party = .done true) ∧
      ¬∀ party, Agrees (fieldOf .di) ((debounceAndId party).assigned fun _ => int32Min)
        ((debounceAndIdRun [.left, .right, .left, .right]).manager.cache.get
          ⟨.di, ⟨0, by decide⟩⟩) := by
  refine ⟨by decide, debounceAndId_disjoint, ?_, ?_⟩
  · intro party
    cases party <;> decide +kernel
  · intro carried
    have kept := carried .left .debounceMs (.number 50) (by decide +kernel)
    revert kept
    decide +kernel

theorem debounceAndId_serial :
    let record := (debounceAndIdRun [.left, .left, .right, .right]).manager.cache.get
      ⟨.di, ⟨0, by decide⟩⟩
    Agrees (fieldOf .di) ((debounceAndId .left).assigned fun _ => int32Min) record ∧
      Agrees (fieldOf .di) ((debounceAndId .right).assigned fun _ => int32Min) record := by
  have accepted : ∀ party, (debounceAndIdRun [.left, .left, .right, .right]).phase party =
      .done true := by
    intro party
    cases party <;> decide +kernel
  have carried := (@concurrentUpdates_carried_iff (fun _ => int32Min) .di .atDefaults 0 rfl
    (by decide) debounceAndId debounceAndId_disjoint _ (by decide) accepted).mpr
      (.inl ⟨.left, rfl⟩)
  exact ⟨carried .left, carried .right⟩

end ConfigWp
