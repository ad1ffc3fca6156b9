import ConfigWp.Application.FieldWrites

/-! What an import reports does not depend on the configuration it is applied to. Two
imports of one text into valid managers go through the same branches with the same
messages, whatever records they patch. -/

set_option autoImplicit false

namespace ConfigWp

/-- Two imports that have reported the same, on managers that are ready and valid. -/
structure Twins (state state' : Import) : Prop where
  ready : state.manager.initialised = true
  ready' : state'.manager.initialised = true
  valid : state.manager.cache.Valid
  valid' : state'.manager.cache.Valid
  report : state.report = state'.report

section Twins

variable {state state' : Import}

theorem Twins.reject (twins : Twins state state') (text : String) :
    Twins (state.reject text) (state'.reject text) := by
  refine ⟨twins.ready, twins.ready', twins.valid, twins.valid', ?_⟩
  rw [Import.reject, Import.reject, twins.report]

theorem Twins.malform (twins : Twins state state') (text : String) :
    Twins (state.malform text) (state'.malform text) := by
  refine ⟨twins.ready, twins.ready', twins.valid, twins.valid', ?_⟩
  rw [Import.malform, Import.malform, twins.report]

theorem Twins.skipUnknown (twins : Twins state state') :
    Twins { state with report := state.report.skipUnknown }
      { state' with report := state'.report.skipUnknown } := by
  refine ⟨twins.ready, twins.ready', twins.valid, twins.valid', ?_⟩
  exact congrArg ImportReport.skipUnknown twins.report

theorem Twins.accept (twins : Twins state state') {key : RecordKey}
    {record record' : key.domain.Record} (valid : validate key.domain record = true)
    (valid' : validate key.domain record' = true) :
    Twins (state.accept (state.manager.store key record))
      (state'.accept (state'.manager.store key record')) :=
  ⟨twins.ready, twins.ready', twins.valid.set valid, twins.valid'.set valid',
    congrArg ImportReport.accept twins.report⟩

end Twins

section Import

variable (undefined : Rat → Int32)

/-! A record. -/

/-- Whether an entry is well formed does not depend on the record it patches. -/
theorem patchRecord_isSome_congr {domain : Domain} (item : Json) (old old' : domain.Record) :
    (patchRecord undefined domain item old).isSome =
      (patchRecord undefined domain item old').isSome := by
  have carried : ∀ {one other : domain.Record},
      (patchRecord undefined domain item one).isSome = true →
        (patchRecord undefined domain item other).isSome = true := by
    intro one other formed
    obtain ⟨new, patched⟩ := Option.isSome_iff_exists.mp formed
    refine patchRecord_isSome undefined fun field => ?_
    have shown := patchRecord_fields undefined patched field
    rw [patchedFieldOf_eq] at shown ⊢
    cases asked : memberPatch undefined domain item field with
    | none => rfl
    | some read =>
        rw [asked, Option.getD_some] at shown
        rw [shown]
        rfl
  exact Bool.eq_iff_iff.mpr ⟨carried, carried⟩

/-- Whether a well-formed entry passes the setter does not depend on the record either. -/
theorem validate_patched_congr {domain : Domain} {item : Json} {old old' new new' : domain.Record}
    (valid : validate domain old = true) (valid' : validate domain old' = true)
    (patched : patchRecord undefined domain item old = some new)
    (patched' : patchRecord undefined domain item old' = some new') :
    validate domain new = validate domain new' := by
  have carried : ∀ {one other made made' : domain.Record}, validate domain other = true →
      patchRecord undefined domain item one = some made →
      patchRecord undefined domain item other = some made' →
        validate domain made = true → validate domain made' = true := by
    intro one other made made' sound first second accepted
    have stored := (storedRecord_eq_some_iff undefined).mpr ⟨first, accepted⟩
    have fits : ∀ field, memberFits undefined domain item field = true := by
      by_contra unfit
      rw [storedRecord_unfit unfit] at stored
      cases stored
    obtain ⟨kept, again, -⟩ := storedRecord_fit sound fits
    obtain ⟨same, holds⟩ := (storedRecord_eq_some_iff undefined).mp again
    obtain rfl := Option.some.inj (second.symm.trans same)
    exact holds
  exact Bool.eq_iff_iff.mpr
    ⟨carried valid' patched patched', carried valid patched' patched⟩

/-! The layers of an import. -/

variable {state state' : Import}

theorem applyChannel_twins {domain : Domain} (arrName : String) (channel : Fin domain.count)
    (item : Json) (twins : Twins state state') :
    Twins (applyChannel undefined domain arrName (UInt8.ofNat channel) item state)
      (applyChannel undefined domain arrName (UInt8.ofNat channel) item state') := by
  have formed := patchRecord_isSome_congr undefined item
    (state.manager.cache.get ⟨domain, channel⟩) (state'.manager.cache.get ⟨domain, channel⟩)
  rw [applyChannel, applyChannel, configGetRecord_channel twins.ready,
    configGetRecord_channel twins.ready']
  dsimp only
  cases patched : patchRecord undefined domain item (state.manager.cache.get ⟨domain, channel⟩) with
  | none =>
      rw [patched, Option.isSome_none, eq_comm, Option.isSome_eq_false_iff,
        Option.isNone_iff_eq_none] at formed
      rw [formed]
      exact twins.reject _
  | some new =>
      rw [patched, Option.isSome_some, eq_comm] at formed
      obtain ⟨new', patched'⟩ := Option.isSome_iff_exists.mp formed
      have same := validate_patched_congr undefined (twins.valid ⟨domain, channel⟩)
        (twins.valid' ⟨domain, channel⟩) patched patched'
      rw [patched']
      dsimp only
      rw [configSetRecord_channel twins.ready, configSetRecord_channel twins.ready', ← same]
      cases accepted : validate domain new with
      | false => exact twins.reject _
      | true =>
          have accepted' := same.symm.trans accepted
          exact @Twins.accept _ _ twins ⟨domain, channel⟩ _ _ accepted accepted'

theorem applyEntry_twins (domain : Domain) (arrName : String) (i : Nat) (item : Json)
    (seen : UInt32) (twins : Twins state state') :
    (applyEntry undefined domain arrName i item seen state).1 =
        (applyEntry undefined domain arrName i item seen state').1 ∧
      Twins (applyEntry undefined domain arrName i item seen state).2
        (applyEntry undefined domain arrName i item seen state').2 := by
  cases item with
  | null => exact ⟨rfl, twins⟩
  | object members =>
      rw [applyEntry, applyEntry]
      cases cJsonGetObjectItemCaseSensitive (.object members) "channel" with
      | none => exact ⟨rfl, twins.reject _⟩
      | some found =>
          cases found with
          | number chv =>
              dsimp only
              split_ifs with outside met
              · exact ⟨rfl, twins.reject _⟩
              · exact ⟨rfl, twins.reject _⟩
              · rw [not_or, not_lt, ge_iff_le, not_le] at outside
                exact ⟨rfl, applyChannel_twins undefined arrName
                  ⟨_, truncate_toNat_lt outside.1 outside.2⟩ _ twins⟩
          | _ => exact ⟨rfl, twins.reject _⟩
  | _ => exact ⟨rfl, twins.malform _⟩

theorem applyEntries_twins (domain : Domain) (arrName : String) (i : Nat) (items : List Json)
    (seen : UInt32) (twins : Twins state state') :
    Twins (applyEntries undefined domain arrName i items (seen, state)).2
      (applyEntries undefined domain arrName i items (seen, state')).2 := by
  induction items generalizing i seen state state' with
  | nil => exact twins
  | cons item items ih =>
      have stepped := applyEntry_twins undefined domain arrName i item seen twins
      rw [applyEntries, applyEntries]
      generalize applyEntry undefined domain arrName i item seen state = next at stepped ⊢
      generalize applyEntry undefined domain arrName i item seen state' = next' at stepped ⊢
      rcases next with ⟨mark, done⟩
      rcases next' with ⟨mark', done'⟩
      obtain ⟨rfl, follows⟩ := stepped
      exact ih (i + 1) mark follows

theorem applyArray_twins (domain : Domain) (arrName : String) (root : Json)
    (twins : Twins state state') :
    Twins (applyArray undefined domain arrName root state)
      (applyArray undefined domain arrName root state') := by
  rw [applyArray, applyArray]
  cases cJsonGetObjectItemCaseSensitive root arrName with
  | none => exact twins
  | some child =>
      cases child with
      | null => exact twins
      | array items => exact applyEntries_twins undefined domain arrName 0 items 0 twins
      | _ => exact twins.malform _

theorem importSystem_twins (child : Json) (twins : Twins state state') :
    Twins (importSystem undefined child state) (importSystem undefined child state') := by
  have cached : ∀ {m : Manager}, m.initialised = true →
      configGetSystem m = .ok (m.cache.get .system) := by
    intro m ready
    rw [configGetSystem, if_neg (by simp [ready])]
    rfl
  have stored : ∀ {m : Manager} (record : SystemConfig), m.initialised = true →
      configSetSystem m (some record) =
        if validateSystem record then (.ok (), m.store .system record)
        else (.error .errInvalid, m) := by
    intro m record ready
    rw [configSetSystem, if_neg (by simp [ready])]
    cases validateSystem record <;> rfl
  cases child with
  | object members =>
      have formed := @patchRecord_isSome_congr undefined .system (.object members)
        (state.manager.cache.get .system) (state'.manager.cache.get .system)
      rw [patchRecord] at formed
      rw [importSystem, importSystem, cached twins.ready, cached twins.ready']
      dsimp only
      cases patched : patchSystemRecord undefined (.object members)
          (state.manager.cache.get .system) with
      | none =>
          rw [patched, Option.isSome_none, eq_comm, Option.isSome_eq_false_iff,
            Option.isNone_iff_eq_none] at formed
          rw [formed]
          exact twins.reject _
      | some new =>
          rw [patched, Option.isSome_some, eq_comm] at formed
          obtain ⟨new', patched'⟩ := Option.isSome_iff_exists.mp formed
          have same : validateSystem new = validateSystem new' :=
            @validate_patched_congr undefined .system _ _ _ _ _ (twins.valid .system)
              (twins.valid' .system) patched patched'
          rw [patched']
          dsimp only
          rw [stored _ twins.ready, stored _ twins.ready', ← same]
          cases accepted : validateSystem new with
          | false => exact twins.reject _
          | true => exact @Twins.accept _ _ twins .system _ _ accepted (same.symm.trans accepted)
  | _ => exact twins.malform _

theorem applyMember_twins (root : Json) (member : List UInt8 × Json) (twins : Twins state state') :
    Twins (applyMember undefined root state member)
      (applyMember undefined root state' member) := by
  rw [applyMember_eq, applyMember_eq]
  split
  · exact twins
  · exact importSystem_twins undefined member.2 twins
  · exact applyArray_twins undefined _ _ root twins
  · exact twins.skipUnknown

theorem applyMembers_twins (root : Json) (members : List (List UInt8 × Json))
    (twins : Twins state state') :
    Twins (members.foldl (applyMember undefined root) state)
      (members.foldl (applyMember undefined root) state') := by
  induction members generalizing state state' with
  | nil => exact twins
  | cons member members ih => exact ih (applyMember_twins undefined root member twins)

/-- The status and the report of an import are those of an import of the same text into any
other ready and valid manager. -/
theorem import_report_independent {m m' : Manager} (ready : m.initialised = true)
    (ready' : m'.initialised = true) (valid : m.cache.Valid) (valid' : m'.cache.Valid)
    (parse : List UInt8 → Option Json) (json : Option (List UInt8)) :
    (configImportJson undefined parse json m).1 = (configImportJson undefined parse json m').1 ∧
      (configImportJson undefined parse json m).2.report =
        (configImportJson undefined parse json m').2.report := by
  have fresh : Twins ⟨m, .reset⟩ ⟨m', .reset⟩ := ⟨ready, ready', valid, valid', rfl⟩
  unfold configImportJson
  cases json with
  | none => exact ⟨rfl, rfl⟩
  | some text =>
      dsimp only
      cases parse text with
      | none => exact ⟨rfl, rfl⟩
      | some root =>
          cases root with
          | object members => exact ⟨rfl, (applyMembers_twins undefined _ members fresh).report⟩
          | _ => exact ⟨rfl, rfl⟩

end Import

/-! A node id that no configuration accepts, sent to two devices. -/

def renumberedManager : Manager :=
  .store .atDefaults .system { systemDefault with canopenNodeId := 5 }

/-- The import of the document into one of them. -/
def refusedImport (m : Manager) : Except ConfigStatus Unit × Import :=
  configImportJson (fun _ => int32Min) (parseOnly (nodeIdText "200") (nodeIdDocument 200))
    (some (nodeIdText "200")) m

theorem import_report_independent_refused :
    (refusedImport .atDefaults).2.report.rejected = 1 ∧
      (refusedImport .atDefaults).1 = (refusedImport renumberedManager).1 ∧
        (refusedImport .atDefaults).2.report = (refusedImport renumberedManager).2.report :=
  ⟨by decide +kernel, import_report_independent _ rfl rfl ConfigCache.valid_defaults
    (ConfigCache.valid_defaults.set (by decide)) _ _⟩

end ConfigWp
