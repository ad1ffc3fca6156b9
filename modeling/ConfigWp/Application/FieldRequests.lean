import ConfigWp.Application.Fields
import ConfigWp.Application.Validity

/-! The field requests field by field. A request stores its value narrowed to the
width of the field, the validator judges what was stored, and nothing else changes;
a value that does not fit is therefore stored as another one when that is legal. -/

set_option autoImplicit false

namespace ConfigWp

/-! A request as a change of one field. -/

def AoParam.toField : AoParam → AoField
  | .name => .name
  | .id => .id
  | .outputMode => .outputMode
  | .faultState => .faultState
  | .faultValue => .faultValue

/-- The field a parameter code names. -/
def paramField : (domain : Domain) → UInt16 → Option domain.Field
  | .di, param => DiParam.ofCode? param
  | .do_, param => DoParam.ofCode? param
  | .tc, param => TcParam.ofCode? param
  | .ai, param => AiParam.ofCode? param
  | .ao, param => (AoParam.ofCode? param).map AoParam.toField
  | .pcnt, param => PcntParam.ofCode? param
  | .pwm, param => PwmParam.ofCode? param
  | .system, param => SystemParam.ofCode? param

def changeRecord : (domain : Domain) → EepromValue → UInt16 → domain.Record →
    Option domain.Record
  | .di, v, param, rec => (DiParam.ofCode? param).map (changeDi v rec)
  | .do_, v, param, rec => (DoParam.ofCode? param).map (changeDo v rec)
  | .tc, v, param, rec => (TcParam.ofCode? param).map (changeTc v rec)
  | .ai, v, param, rec => (AiParam.ofCode? param).map (changeAi v rec)
  | .ao, v, param, rec => (AoParam.ofCode? param).map (changeAo v rec)
  | .pcnt, v, param, rec => (PcntParam.ofCode? param).map (changePcnt v rec)
  | .pwm, v, param, rec => (PwmParam.ofCode? param).map (changePwm v rec)
  | .system, v, param, rec => (SystemParam.ofCode? param).map (changeSystem v rec)

/-- The item of a request, which the system record does not look at. -/
def requestIndex (domain : Domain) (item : UInt8) : UInt8 :=
  match domain with
  | .system => 0
  | _ => item

theorem applyField_eq (m : Manager) (type : UInt32) (item : UInt8) (param : UInt16)
    (value : EepromValue) :
    applyField m type item param value =
      match eepromType? type with
      | none => (.error .errInvalid, m)
      | some domain =>
          applyRecord domain m (requestIndex domain item) (changeRecord domain value param) := by
  unfold applyField
  cases eepromType? type with
  | none => rfl
  | some domain =>
      cases domain with
      | system =>
          simp only [applySystem, applyRecord, configGetSystem_eq, configSetSystem_eq, changeRecord,
            requestIndex]
          cases configGetRecord .system m 0 with
          | error status => rfl
          | ok rec => cases SystemParam.ofCode? param <;> rfl
      | _ => rfl

/-- What a field of a kind stores of the value of a request. -/
def storedValue (v : EepromValue) : FieldKind → FieldValue
  | .text => .text v.name
  | .flag => .flag v.b
  | .unsigned bits => .number (v.u.toNat % 2 ^ bits : Nat)
  | .signed bits => .number (v.i.toInt.bmod (2 ^ bits))
  | .choice _ _ => .number v.u.toNat

/-- The value asked for: the whole of the arm that the field reads. -/
def requestedValue (v : EepromValue) : FieldKind → FieldValue
  | .text => .text v.name
  | .flag => .flag v.b
  | .signed _ => .number v.i.toInt
  | _ => .number v.u.toNat

/-- A request changes the field it names, and only that field. -/
theorem changeRecord_fields {domain : Domain} {param : UInt16} {field : domain.Field}
    (named : paramField domain param = some field) (v : EepromValue) (old : domain.Record) :
    ∃ new, changeRecord domain v param old = some new ∧
      ∀ other, fieldOf domain new other =
        if other = field then storedValue v (fieldKind domain field)
        else fieldOf domain old other := by
  cases domain with
  | di =>
      have decoded : DiParam.ofCode? param = some field := named
      refine ⟨changeDi v old field, by rw [changeRecord, decoded, Option.map_some], ?_⟩
      intro other
      cases field <;> cases other <;>
        simp [fieldOf, diField, changeDi, storedValue, fieldKind, fieldShape, diShape]
  | do_ =>
      have decoded : DoParam.ofCode? param = some field := named
      refine ⟨changeDo v old field, by rw [changeRecord, decoded, Option.map_some], ?_⟩
      intro other
      cases field <;> cases other <;>
        simp [fieldOf, doField, changeDo, storedValue, fieldKind, fieldShape, doShape]
  | tc =>
      have decoded : TcParam.ofCode? param = some field := named
      refine ⟨changeTc v old field, by rw [changeRecord, decoded, Option.map_some], ?_⟩
      intro other
      cases field <;> cases other <;>
        simp [fieldOf, tcField, changeTc, storedValue, fieldKind, fieldShape, tcShape]
  | ai =>
      have decoded : AiParam.ofCode? param = some field := named
      refine ⟨changeAi v old field, by rw [changeRecord, decoded, Option.map_some], ?_⟩
      intro other
      cases field <;> cases other <;>
        simp [fieldOf, aiField, changeAi, storedValue, fieldKind, fieldShape, aiShape]
  | ao =>
      obtain ⟨code, decoded, rfl⟩ := Option.map_eq_some_iff.mp named
      refine ⟨changeAo v old code, by rw [changeRecord, decoded, Option.map_some], ?_⟩
      intro other
      cases code <;> cases other <;>
        simp [fieldOf, aoField, changeAo, AoParam.toField, storedValue, fieldKind, fieldShape,
          aoShape]
  | pcnt =>
      have decoded : PcntParam.ofCode? param = some field := named
      refine ⟨changePcnt v old field, by rw [changeRecord, decoded, Option.map_some], ?_⟩
      intro other
      cases field <;> cases other <;>
        simp [fieldOf, pcntField, changePcnt, storedValue, fieldKind, fieldShape, pcntShape]
  | pwm =>
      have decoded : PwmParam.ofCode? param = some field := named
      refine ⟨changePwm v old field, by rw [changeRecord, decoded, Option.map_some], ?_⟩
      intro other
      cases field <;> cases other <;>
        simp [fieldOf, pwmField, changePwm, storedValue, fieldKind, fieldShape, pwmShape]
  | system =>
      have decoded : SystemParam.ofCode? param = some field := named
      refine ⟨changeSystem v old field, by rw [changeRecord, decoded, Option.map_some], ?_⟩
      intro other
      cases field <;> cases other <;>
        simp [fieldOf, systemField, changeSystem, storedValue, fieldKind, fieldShape, systemShape]

/-- What processing a request that names a field does. -/
theorem processRequest_field {m : Manager} {type : UInt32} {item : UInt8} {param : UInt16}
    {domain : Domain} {field : domain.Field} (ready : m.initialised = true)
    (typed : eepromType? type = some domain) (named : paramField domain param = some field)
    (value : EepromValue) (inside : (requestIndex domain item).toNat < domain.count) :
    ∃ new : domain.Record,
      (∀ other, fieldOf domain new other =
        if other = field then storedValue value (fieldKind domain field)
        else fieldOf domain (m.cache.get ⟨domain, ⟨_, inside⟩⟩) other) ∧
      processRequest m (.field type item param value) =
        if validate domain new then
          (true, { m with cache := m.cache.set ⟨domain, ⟨_, inside⟩⟩ new })
        else (false, m) := by
  obtain ⟨new, change, fields⟩ :=
    changeRecord_fields named value (m.cache.get ⟨domain, ⟨_, inside⟩⟩)
  refine ⟨new, fields, ?_⟩
  simp only [processRequest, applyField_eq, typed, applyRecord,
    configGetRecord_ready ready inside, change, configSetRecord_ready ready inside]
  cases validate domain new <;> rfl

theorem processRequest_outside {m : Manager} {type : UInt32} {item : UInt8} {param : UInt16}
    {domain : Domain} (ready : m.initialised = true) (typed : eepromType? type = some domain)
    (value : EepromValue) (outside : ¬(requestIndex domain item).toNat < domain.count) :
    processRequest m (.field type item param value) = (false, m) := by
  simp only [processRequest, applyField_eq, typed, applyRecord,
    configGetRecord_outside ready outside]

/-- A request is refused and the cache unchanged, or it is accepted, the field it names
holds the whole value asked for and every other field of the cache is unchanged. -/
def RequestExact (m : Manager) (type : UInt32) (item : UInt8) (param : UInt16)
    (value : EepromValue) (domain : Domain) (field : domain.Field) : Prop :=
  let outcome := processRequest m (.field type item param value)
  (outcome.1 = false ∧ outcome.2.cache = m.cache) ∨
    (outcome.1 = true ∧ ∃ index : Fin domain.count, (requestIndex domain item).toNat = index ∧
      outcome.2.cache.field ⟨⟨domain, index⟩, field⟩ =
        requestedValue value (fieldKind domain field) ∧
      ∀ place, place ≠ ⟨⟨domain, index⟩, field⟩ →
        outcome.2.cache.field place = m.cache.field place)

/-- A request is exact or refused, unless it addresses a record with a value that does
not fit the width of the field and what is left of it there is legal. -/
theorem processRequest_exact_iff {m : Manager} {type : UInt32} {item : UInt8} {param : UInt16}
    {domain : Domain} {field : domain.Field} (ready : m.initialised = true)
    (valid : m.cache.Valid) (typed : eepromType? type = some domain)
    (named : paramField domain param = some field) (value : EepromValue) :
    RequestExact m type item param value domain field ↔
      ((requestIndex domain item).toNat < domain.count →
        fieldLegal domain field (storedValue value (fieldKind domain field)) →
          storedValue value (fieldKind domain field) =
            requestedValue value (fieldKind domain field)) := by
  by_cases inside : (requestIndex domain item).toNat < domain.count
  · obtain ⟨new, fields, processed⟩ := processRequest_field ready typed named value inside
    have checked := validate_changed_iff (valid ⟨domain, ⟨_, inside⟩⟩) fields
    rw [RequestExact, processed, ← checked]
    cases verdict : validate domain new with
    | false => simp
    | true =>
        simp only [if_true, Bool.true_eq_false, false_and, false_or, true_and]
        constructor
        · rintro ⟨index, place, shown, -⟩ - -
          obtain rfl : index = ⟨_, inside⟩ := Fin.ext place.symm
          rwa [ConfigCache.field_set_same, fields, if_pos rfl] at shown
        · intro fits
          refine ⟨⟨_, inside⟩, rfl, ?_, ?_⟩
          · rw [ConfigCache.field_set_same, fields, if_pos rfl]
            exact fits inside trivial
          · rintro ⟨key, other⟩ apart
            by_cases same : key = ⟨domain, ⟨_, inside⟩⟩
            · subst same
              have elsewhere : other ≠ field := fun here => apart (by rw [here])
              rw [ConfigCache.field_set_same, fields, if_neg elsewhere, ConfigCache.field]
            · exact ConfigCache.field_set_other _ _ same
  · rw [RequestExact, processRequest_outside ready typed value inside]
    simp [inside]

/-- The node id 257. -/
def nodeId257 : EepromValue := ⟨.ofBytes [1, 1]⟩

/-- The node id 257 is accepted and stored as 1. -/
theorem processRequest_narrows :
    Manager.atDefaults.initialised = true ∧ Manager.atDefaults.cache.Valid ∧
      eepromType? 7 = some .system ∧ paramField .system 0 = some .canopenNodeId ∧
      nodeId257.u = 257 ∧
      ¬RequestExact .atDefaults 7 0 0 nodeId257 .system .canopenNodeId := by
  refine ⟨rfl, ConfigCache.valid_defaults, rfl, rfl, by decide, ?_⟩
  rintro (⟨refused, -⟩ | ⟨-, index, -, shown, -⟩)
  · revert refused
    decide +kernel
  · obtain rfl : index = ⟨0, Nat.one_pos⟩ := Subsingleton.elim (α := Fin 1) index _
    revert shown
    decide +kernel

theorem processRequest_exact_node :
    RequestExact .atDefaults 7 0 0 ⟨.ofBytes [5]⟩ .system .canopenNodeId := by
  refine (processRequest_exact_iff rfl ConfigCache.valid_defaults rfl rfl ⟨.ofBytes [5]⟩).mpr ?_
  intro _ _
  decide

end ConfigWp
