import ConfigWp.Application.ConfigJson
import ConfigWp.Application.EepromManager
import Mathlib.Logic.Relation

/-! A JSON import and a field request change the manager through the validating
setters and in no other way: whatever they are given, the manager they leave is
reached from the one they found by setter calls that succeeded. -/

set_option autoImplicit false

namespace ConfigWp

def SetterStep (m next : Manager) : Prop :=
  ∃ key record, m.initialised = true ∧ validate key.domain record = true ∧
    next = { m with cache := m.cache.set key record }

abbrev SetterRun : Manager → Manager → Prop := Relation.ReflTransGen SetterStep

theorem SetEffect.run {m : Manager} {outcome : Except ConfigStatus Unit × Manager}
    (effect : SetEffect m outcome) : SetterRun m outcome.2 := by
  cases effect with
  | refused status => exact .refl
  | stored key record ready valid => exact .single ⟨key, record, ready, valid, rfl⟩

theorem configSetRecord_run (domain : Domain) (m : Manager) (idx : UInt8)
    (input : Option domain.Record) : SetterRun m (configSetRecord domain m idx input).2 :=
  (configSetRecord_effect domain m idx input).run

theorem configSetSystem_run (m : Manager) (input : Option SystemConfig) :
    SetterRun m (configSetSystem m input).2 := by
  rw [configSetSystem_eq]
  exact configSetRecord_run .system m 0 input

theorem configSet_run (m : Manager) (domain : Domain) (idx : UInt8)
    (input : Option domain.Record) : SetterRun m (configSet m domain idx input).2 :=
  (configSet_effect m domain idx input).run

/-! Importing a document. -/

section Import

variable (undefined : Rat → Int32)

theorem applyChannel_run (domain : Domain) (arrName : String) (idx : UInt8) (item : Json)
    (state : Import) :
    SetterRun state.manager (applyChannel undefined domain arrName idx item state).manager := by
  unfold applyChannel
  cases configGetRecord domain state.manager idx with
  | error status => exact .refl
  | ok cached =>
      dsimp only
      cases patchRecord undefined domain item cached with
      | none => exact .refl
      | some record =>
          have stored := configSetRecord_run domain state.manager idx (some record)
          dsimp only
          generalize configSetRecord domain state.manager idx (some record) = outcome at stored ⊢
          rcases outcome with ⟨status | done, manager⟩
          · exact .refl
          · exact stored

theorem applyEntry_run (domain : Domain) (arrName : String) (i : Nat) (item : Json)
    (seen : UInt32) (state : Import) :
    SetterRun state.manager
      (applyEntry undefined domain arrName i item seen state).2.manager := by
  unfold applyEntry
  cases item with
  | object members =>
      dsimp only
      split
      · split_ifs
        · exact .refl
        · exact .refl
        · exact applyChannel_run undefined domain arrName _ _ state
      · exact .refl
  | _ => exact .refl

theorem applyEntries_run (domain : Domain) (arrName : String) (items : List Json) (i : Nat)
    (seen : UInt32) (state : Import) :
    SetterRun state.manager
      (applyEntries undefined domain arrName i items (seen, state)).2.manager := by
  induction items generalizing i seen state with
  | nil => exact .refl
  | cons item items ih =>
      have first := applyEntry_run undefined domain arrName i item seen state
      rw [applyEntries]
      generalize applyEntry undefined domain arrName i item seen state = next at first ⊢
      exact first.trans (ih (i + 1) next.1 next.2)

theorem applyArray_run (domain : Domain) (arrName : String) (root : Json) (state : Import) :
    SetterRun state.manager (applyArray undefined domain arrName root state).manager := by
  unfold applyArray
  split
  · exact .refl
  · exact .refl
  · exact applyEntries_run undefined domain arrName _ 0 0 state
  · exact .refl

theorem importSystem_run (child : Json) (state : Import) :
    SetterRun state.manager (importSystem undefined child state).manager := by
  unfold importSystem
  cases child with
  | object members =>
      cases configGetSystem state.manager with
      | error status => exact .refl
      | ok cached =>
          dsimp only
          cases patchSystemRecord undefined (.object members) cached with
          | none => exact .refl
          | some record =>
              have stored := configSetSystem_run state.manager (some record)
              dsimp only
              generalize configSetSystem state.manager (some record) = outcome at stored ⊢
              rcases outcome with ⟨status | done, manager⟩
              · exact .refl
              · exact stored
  | _ => exact .refl

theorem applyMember_run (root : Json) (state : Import) (member : List UInt8 × Json) :
    SetterRun state.manager (applyMember undefined root state member).manager := by
  unfold applyMember
  split_ifs
  · exact .refl
  · exact importSystem_run undefined member.2 state
  all_goals first | exact applyArray_run undefined _ _ root state | exact .refl

theorem applyMembers_run (root : Json) (members : List (List UInt8 × Json)) (state : Import) :
    SetterRun state.manager (members.foldl (applyMember undefined root) state).manager := by
  induction members generalizing state with
  | nil => exact .refl
  | cons member members ih => exact (applyMember_run undefined root state member).trans (ih _)

theorem configImportJson_run (parse : List UInt8 → Option Json) (json : Option (List UInt8))
    (m : Manager) : SetterRun m (configImportJson undefined parse json m).2.manager := by
  unfold configImportJson
  cases json with
  | none => exact .refl
  | some text =>
      dsimp only
      cases parse text with
      | none => exact .refl
      | some root =>
          cases root with
          | object members => exact applyMembers_run undefined _ members ⟨m, .reset⟩
          | _ => exact .refl

end Import

/-! Processing a request. -/

theorem applyRecord_run (domain : Domain) (m : Manager) (idx : UInt8)
    (change : domain.Record → Option domain.Record) :
    SetterRun m (applyRecord domain m idx change).2 := by
  unfold applyRecord
  cases configGetRecord domain m idx with
  | error status => exact .refl
  | ok cached =>
      dsimp only
      cases change cached with
      | none => exact .refl
      | some record => exact configSetRecord_run domain m idx (some record)

theorem applySystem_run (m : Manager) (param : UInt16) (v : EepromValue) :
    SetterRun m (applySystem m param v).2 := by
  unfold applySystem
  cases configGetSystem m with
  | error status => exact .refl
  | ok cached =>
      dsimp only
      cases (SystemParam.ofCode? param).map (changeSystem v cached) with
      | none => exact .refl
      | some record => exact configSetSystem_run m (some record)

theorem applyField_run (m : Manager) (type : UInt32) (item : UInt8) (param : UInt16)
    (value : EepromValue) : SetterRun m (applyField m type item param value).2 := by
  unfold applyField
  cases eepromType? type with
  | none => exact .refl
  | some domain =>
      cases domain with
      | system => exact applySystem_run m param value
      | _ => exact applyRecord_run _ m item _

theorem processRequest_run (m : Manager) (request : EepromRequest) :
    SetterRun m (processRequest m request).2 := by
  cases request with
  | commit => exact .refl
  | field type item param value =>
      have applied := applyField_run m type item param value
      unfold processRequest
      dsimp only
      generalize applyField m type item param value = outcome at applied ⊢
      rcases outcome with ⟨status | done, manager⟩ <;> exact applied

end ConfigWp
