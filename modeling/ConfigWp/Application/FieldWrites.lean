import ConfigWp.Application.EepromTask
import ConfigWp.Application.FieldPatches
import ConfigWp.Application.ImportPlan
import ConfigWp.Library.Writes

/-! What a client call does to a valid configuration, field by field. Setters, requests and
imports write values that do not depend on the configuration they meet, so a run of calls
is decided by the last write to each field. -/

set_option autoImplicit false

namespace ConfigWp

open Writes

abbrev FieldWrite : Type := Write FieldPlace FieldValue

theorem ConfigCache.field_ext {left right : ConfigCache} (same : left.field = right.field) :
    left = right := by
  refine ConfigCache.ext_get fun key => fieldOf_ext fun field => ?_
  exact congrFun same ⟨key, field⟩

/-! Writes to the fields of one record. -/

/-- The fields of a record that are given a value. -/
def fieldsWrites (key : RecordKey) (values : key.domain.Field → Option FieldValue) :
    List FieldWrite :=
  key.domain.fields.filterMap fun field => (values field).map fun value => ⟨⟨key, field⟩, value⟩

theorem mem_fieldsWrites {key : RecordKey} {values : key.domain.Field → Option FieldValue}
    {write : FieldWrite} :
    write ∈ fieldsWrites key values ↔
      ∃ field value, values field = some value ∧ write = ⟨⟨key, field⟩, value⟩ := by
  rw [fieldsWrites, List.mem_filterMap]
  constructor
  · rintro ⟨field, -, given⟩
    obtain ⟨value, held, rfl⟩ := Option.map_eq_some_iff.mp given
    exact ⟨field, value, held, rfl⟩
  · rintro ⟨field, value, held, rfl⟩
    exact ⟨field, Domain.mem_fields field, by rw [held, Option.map_some]⟩

theorem final_fieldsWrites_same (key : RecordKey) (values : key.domain.Field → Option FieldValue)
    (field : key.domain.Field) : final ⟨key, field⟩ (fieldsWrites key values) = values field := by
  cases held : values field with
  | none =>
      refine final_eq_none_iff.mpr fun write listed here => ?_
      obtain ⟨other, value, given, rfl⟩ := mem_fieldsWrites.mp listed
      obtain ⟨-, same⟩ := FieldPlace.mk.inj here
      obtain rfl := eq_of_heq same
      rw [held] at given
      cases given
  | some value =>
      refine final_eq_some ?_ ⟨_, mem_fieldsWrites.mpr ⟨field, value, held, rfl⟩, rfl⟩
      intro write listed here
      obtain ⟨other, theirs, given, rfl⟩ := mem_fieldsWrites.mp listed
      obtain ⟨-, same⟩ := FieldPlace.mk.inj here
      obtain rfl := eq_of_heq same
      exact (Option.some.inj (held.symm.trans given)).symm

theorem final_fieldsWrites_other {key : RecordKey} {place : FieldPlace}
    (values : key.domain.Field → Option FieldValue) (apart : place.key ≠ key) :
    final place (fieldsWrites key values) = none := by
  refine final_eq_none_iff.mpr fun write listed here => ?_
  obtain ⟨field, value, -, rfl⟩ := mem_fieldsWrites.mp listed
  exact apart (congrArg FieldPlace.key here).symm

/-- A record that keeps the fields it is not given a value for. -/
theorem turns_set {cache : ConfigCache} {key : RecordKey} {new : key.domain.Record}
    {values : key.domain.Field → Option FieldValue}
    (fields : ∀ field, fieldOf key.domain new field =
      (values field).getD (fieldOf key.domain (cache.get key) field)) :
    Turns cache.field (fieldsWrites key values) (cache.set key new).field := by
  rintro ⟨other, field⟩
  by_cases same : other = key
  · subst same
    rw [ConfigCache.field_set_same, final_fieldsWrites_same, fields]
    rfl
  · rw [ConfigCache.field_set_other _ _ same, final_fieldsWrites_other _ same, Option.getD_none]

/-! Setters and the reset. -/

/-- The writes of a record as a whole. -/
def recordWrites (key : RecordKey) (record : key.domain.Record) : List FieldWrite :=
  fieldsWrites key fun field => some (fieldOf key.domain record field)

def setWrites (domain : Domain) (idx : UInt8) (input : Option domain.Record) : List FieldWrite :=
  match input with
  | none => []
  | some record =>
      if inside : (requestIndex domain idx).toNat < domain.count then
        if validate domain record then recordWrites ⟨domain, ⟨_, inside⟩⟩ record else []
      else []

theorem configSet_turns {m : Manager} (ready : m.initialised = true) (domain : Domain)
    (idx : UInt8) (input : Option domain.Record) :
    Turns m.cache.field (setWrites domain idx input)
      (configSet m domain idx input).2.cache.field := by
  rw [configSet_eq]
  cases input with
  | none =>
      rw [configSetRecord, if_neg (by simp [ready])]
      exact turns_nil _
  | some record =>
      rw [setWrites]
      split_ifs with inside valid
      · rw [configSetRecord_ready ready inside, if_pos valid]
        exact turns_set fun field => rfl
      · rw [configSetRecord_ready ready inside, if_neg valid]
        exact turns_nil _
      · simp only [configSetRecord, ready, Bool.not_true, Bool.false_eq_true, if_false,
          dif_neg inside]
        exact turns_nil _

def resetWrites : List FieldWrite :=
  recordKeys.flatMap fun key => recordWrites key key.domain.default

theorem resetDefaults_turns (cache : ConfigCache) :
    Turns cache.field resetWrites ConfigCache.defaults.field := by
  rintro ⟨key, field⟩
  have written : final ⟨key, field⟩ resetWrites =
      some (fieldOf key.domain key.domain.default field) := by
    refine final_eq_some ?_ ⟨⟨⟨key, field⟩, _⟩, List.mem_flatMap.mpr ⟨key, mem_recordKeys key,
      mem_fieldsWrites.mpr ⟨field, _, rfl, rfl⟩⟩, rfl⟩
    intro write listed here
    obtain ⟨other, -, inside⟩ := List.mem_flatMap.mp listed
    obtain ⟨theirs, value, given, rfl⟩ := mem_fieldsWrites.mp inside
    cases here
    exact (Option.some.inj given).symm
  rw [written, ConfigCache.field, ConfigCache.get_defaults]
  rfl

/-! Requests. -/

instance decidableNumberCheck (domain : Domain) (field : domain.Field) (value : Int) :
    Decidable (numberCheck domain field value) := by
  cases domain <;> cases field <;> (dsimp only [numberCheck]; infer_instance)

instance decidableNames (kind : FieldKind) (value : Int) : Decidable (kind.Names value) :=
  match kind with
  | .choice count _ => inferInstanceAs (Decidable (value < count.toNat))
  | .text => .isTrue trivial
  | .flag => .isTrue trivial
  | .unsigned _ => .isTrue trivial
  | .signed _ => .isTrue trivial

instance decidableFieldLegal (domain : Domain) (field : domain.Field) (value : FieldValue) :
    Decidable (fieldLegal domain field value) :=
  match value with
  | .text name => inferInstanceAs (Decidable (name.last = 0))
  | .flag _ => .isTrue trivial
  | .number value =>
      inferInstanceAs (Decidable ((fieldKind domain field).Names value ∧
        numberCheck domain field value))

/-- The field that a request is accepted for, if it is, with the value stored there. -/
def requestWrites : EepromRequest → List FieldWrite
  | .commit => []
  | .field type item param value =>
      match eepromType? type with
      | none => []
      | some domain =>
          match paramField domain param with
          | none => []
          | some field =>
              if inside : (requestIndex domain item).toNat < domain.count then
                let stored := storedValue value (fieldKind domain field)
                if fieldLegal domain field stored then
                  fieldsWrites ⟨domain, ⟨_, inside⟩⟩ fun other =>
                    if other = field then some stored else none
                else []
              else []

theorem changeRecord_unnamed {domain : Domain} {param : UInt16}
    (unnamed : paramField domain param = none) (v : EepromValue) (old : domain.Record) :
    changeRecord domain v param old = none := by
  cases domain with
  | ao =>
      have undecoded : AoParam.ofCode? param = none := Option.map_eq_none_iff.mp unnamed
      rw [changeRecord, undecoded, Option.map_none]
  | _ => exact Option.map_eq_none_iff.mpr unnamed

theorem processRequest_turns {m : Manager} (ready : m.initialised = true) (valid : m.cache.Valid)
    (request : EepromRequest) :
    Turns m.cache.field (requestWrites request) (processRequest m request).2.cache.field := by
  cases request with
  | commit => exact turns_nil _
  | field type item param value =>
      rw [requestWrites]
      cases typed : eepromType? type with
      | none =>
          rw [processRequest, applyField_eq, typed]
          exact turns_nil _
      | some domain =>
          dsimp only
          cases named : paramField domain param with
          | none =>
              rw [processRequest, applyField_eq, typed]
              dsimp only
              rw [applyRecord]
              cases configGetRecord domain m (requestIndex domain item) with
              | error status => exact turns_nil _
              | ok old =>
                  dsimp only
                  rw [changeRecord_unnamed named]
                  exact turns_nil _
          | some field =>
              dsimp only
              split_ifs with inside legal
              · obtain ⟨new, fields, processed⟩ :=
                  processRequest_field ready typed named value inside
                have checked := validate_changed_iff (valid ⟨domain, ⟨_, inside⟩⟩) fields
                rw [processed, if_pos (checked.mpr legal)]
                refine turns_set fun other => ?_
                rw [fields other]
                split_ifs <;> rfl
              · obtain ⟨new, fields, processed⟩ :=
                  processRequest_field ready typed named value inside
                have checked := validate_changed_iff (valid ⟨domain, ⟨_, inside⟩⟩) fields
                rw [processed, if_neg (mt checked.mp legal)]
                exact turns_nil _
              · rw [processRequest_outside ready typed value inside]
                exact turns_nil _

/-! Imports. -/

section Import

variable (undefined : Rat → Int32)

/-- What an entry asks of a field: nothing where its member is missing or null. -/
def memberPatch (domain : Domain) (item : Json) (field : domain.Field) :
    Option (Option FieldValue) :=
  match cJsonGetObjectItemCaseSensitive item (fieldKey domain field) with
  | none => none
  | some .null => none
  | some j => some (readField undefined (fieldKind domain field) j)

theorem patchedFieldOf_eq (domain : Domain) (item : Json) (old : domain.Record)
    (field : domain.Field) :
    patchedFieldOf undefined domain item old field =
      (memberPatch undefined domain item field).getD (some (fieldOf domain old field)) := by
  rw [patchedFieldOf, patchedField, patchField, memberPatch]
  cases cJsonGetObjectItemCaseSensitive item (fieldKey domain field) with
  | none => rfl
  | some j => cases j <;> rfl

/-- A member that is missing or null, or that reads as a legal value. -/
def memberFits (domain : Domain) (item : Json) (field : domain.Field) : Bool :=
  match memberPatch undefined domain item field with
  | none => true
  | some none => false
  | some (some value) => fieldLegal domain field value

def updateWrites (update : ImportUpdate) : List FieldWrite :=
  if update.key.domain.fields.all (memberFits undefined update.key.domain update.item) then
    fieldsWrites update.key fun field =>
      (memberPatch undefined update.key.domain update.item field).join
  else []

variable {undefined}

theorem storedRecord_unfit {domain : Domain} {item : Json} {old : domain.Record}
    (unfit : ¬∀ field, memberFits undefined domain item field = true) :
    storedRecord undefined domain item old = none := by
  by_contra stores
  obtain ⟨new, stored⟩ := Option.ne_none_iff_exists'.mp stores
  obtain ⟨patched, valid⟩ := (storedRecord_eq_some_iff undefined).mp stored
  rw [validate_iff, inRange_iff_fields] at valid
  refine unfit fun field => ?_
  have shown := patchRecord_fields undefined patched field
  rw [patchedFieldOf_eq] at shown
  rw [memberFits]
  cases asked : memberPatch undefined domain item field with
  | none => rfl
  | some read =>
      rw [asked, Option.getD_some] at shown
      rw [shown]
      exact decide_eq_true (valid field)

theorem storedRecord_fit {domain : Domain} {item : Json} {old : domain.Record}
    (valid : validate domain old = true)
    (fit : ∀ field, memberFits undefined domain item field = true) :
    ∃ new, storedRecord undefined domain item old = some new ∧
      ∀ field, fieldOf domain new field =
        (memberPatch undefined domain item field).join.getD (fieldOf domain old field) := by
  have formed : ∀ field, (patchedFieldOf undefined domain item old field).isSome = true := by
    intro field
    have fits := fit field
    rw [memberFits] at fits
    rw [patchedFieldOf_eq]
    cases asked : memberPatch undefined domain item field with
    | none => rfl
    | some read =>
        rw [asked] at fits
        cases read with
        | none => cases fits
        | some value => rfl
  obtain ⟨new, patched⟩ := Option.isSome_iff_exists.mp (patchRecord_isSome undefined formed)
  have fields : ∀ field, fieldOf domain new field =
      (memberPatch undefined domain item field).join.getD (fieldOf domain old field) := by
    intro field
    have shown := patchRecord_fields undefined patched field
    rw [patchedFieldOf_eq] at shown
    cases asked : memberPatch undefined domain item field with
    | none =>
        rw [asked] at shown
        exact (Option.some.inj shown).symm
    | some read =>
        rw [asked, Option.getD_some] at shown
        rw [shown]
        rfl
  refine ⟨new, (storedRecord_eq_some_iff undefined).mpr ⟨patched, ?_⟩, fields⟩
  rw [validate_iff, inRange_iff_fields] at valid ⊢
  intro field
  have fits := fit field
  rw [memberFits] at fits
  rw [fields field]
  cases asked : memberPatch undefined domain item field with
  | none => exact valid field
  | some read =>
      rw [asked] at fits
      cases read with
      | none => cases fits
      | some value => exact of_decide_eq_true fits

theorem applyUpdate_turns {m : Manager} (valid : m.cache.Valid) (update : ImportUpdate) :
    Turns m.cache.field (updateWrites undefined update)
      (applyUpdate undefined m update).cache.field := by
  rw [updateWrites, applyUpdate]
  split_ifs with fit
  · have fits : ∀ field, memberFits undefined update.key.domain update.item field = true :=
      forall_field_iff.mpr (List.all_eq_true.mp fit)
    obtain ⟨new, stored, fields⟩ := storedRecord_fit (valid update.key) fits
    rw [stored]
    exact turns_set fields
  · have unfit : ¬∀ field, memberFits undefined update.key.domain update.item field = true :=
      fun fits => fit (List.all_eq_true.mpr fun field _ => fits field)
    rw [storedRecord_unfit unfit]
    exact turns_nil _

theorem applyUpdate_valid {m : Manager} (valid : m.cache.Valid) (update : ImportUpdate) :
    (applyUpdate undefined m update).cache.Valid := by
  rw [applyUpdate]
  cases stored : storedRecord undefined update.key.domain update.item
      (m.cache.get update.key) with
  | none => exact valid
  | some record => exact valid.set ((storedRecord_eq_some_iff undefined).mp stored).2

variable (undefined) in
/-- The writes of the text that an import is handed. -/
def importWrites (parse : List UInt8 → Option Json) (json : Option (List UInt8)) :
    List FieldWrite :=
  match json.bind parse with
  | some (.object members) => (importPlan members).flatMap (updateWrites undefined)
  | _ => []

theorem configImportJson_turns {m : Manager} (ready : m.initialised = true)
    (valid : m.cache.Valid) (parse : List UInt8 → Option Json) (json : Option (List UInt8)) :
    Turns m.cache.field (importWrites undefined parse json)
      (configImportJson undefined parse json m).2.manager.cache.field := by
  unfold importWrites configImportJson
  cases json with
  | none => exact turns_nil _
  | some text =>
      rw [Option.bind_some]
      dsimp only
      cases parse text with
      | none => exact turns_nil _
      | some root =>
          cases root with
          | object members =>
              dsimp only
              rw [configImportDocument_plan ready]
              have preserved : ∀ (m : Manager) update, True → m.cache.Valid →
                  (applyUpdate undefined m update).cache.Valid :=
                fun _ update _ held => applyUpdate_valid held update
              exact turns_run preserved (fun _ update _ held => applyUpdate_turns held update)
                valid fun _ _ => trivial
          | _ => exact turns_nil _

end Import

end ConfigWp
