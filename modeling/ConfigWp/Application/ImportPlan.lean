import ConfigWp.Application.ImportDocument

/-! The updates of an import. Which records a document asks to change, and in which order,
does not depend on the cache, so an import is one update after the other of a list that
the document alone decides. -/

set_option autoImplicit false

namespace ConfigWp

/-- A record that a document asks to change, and the entry that does. -/
structure ImportUpdate where
  key : RecordKey
  item : Json

/-- The entries of an array that reach the getter of their channel. -/
def entriesPlan (domain : Domain) : UInt32 → List Json → List ImportUpdate
  | _, [] => []
  | seen, item :: items =>
      match entryChannel domain item with
      | none => entriesPlan domain seen items
      | some channel =>
          if maskHas seen channel then entriesPlan domain seen items
          else ⟨⟨domain, channel⟩, item⟩ :: entriesPlan domain (maskMark seen channel) items

def systemPlan (child : Json) : List ImportUpdate :=
  match child with
  | .object _ => [⟨.system, child⟩]
  | _ => []

def memberPlan (root : Json) (member : List UInt8 × Json) : List ImportUpdate :=
  match memberRole member.1 with
  | .record .system => systemPlan member.2
  | .record domain => entriesPlan domain 0 (arrayEntries root domain.memberName)
  | _ => []

/-- The updates of a document in the order of the import. -/
def importPlan (members : List (List UInt8 × Json)) : List ImportUpdate :=
  members.flatMap (memberPlan (.object members))

section Plan

variable (undefined : Rat → Int32)

/-- The getter, the patch and the setter of one update. -/
def applyUpdate (m : Manager) (update : ImportUpdate) : Manager :=
  match storedRecord undefined update.key.domain update.item (m.cache.get update.key) with
  | none => m
  | some record => m.store update.key record

def applyUpdates (m : Manager) (plan : List ImportUpdate) : Manager :=
  plan.foldl (applyUpdate undefined) m

variable {undefined}

theorem EntryEffect.plan {domain : Domain} {item : Json} {seen : UInt32} {state : Import}
    {next : UInt32 × Import} (effect : EntryEffect undefined domain item seen state next)
    (items : List Json) :
    applyUpdates undefined state.manager (entriesPlan domain seen (item :: items)) =
      applyUpdates undefined next.2.manager (entriesPlan domain next.1 items) := by
  rw [entriesPlan]
  cases effect with
  | skipped null =>
      subst null
      rfl
  | malformed text worded shape present => rw [entryChannel_of_not_object shape]; rfl
  | unaddressed text worded shape nowhere => rw [nowhere]; rfl
  | duplicate text worded place addressed met =>
      rw [addressed]
      dsimp only
      rw [if_pos met]
      rfl
  | refused text worded place addressed fresh unfit =>
      rw [addressed]
      dsimp only
      rw [if_neg (by simp [fresh]), applyUpdates, List.foldl_cons, applyUpdate, unfit]
      rfl
  | applied place record addressed fresh stored =>
      rw [addressed]
      dsimp only
      rw [if_neg (by simp [fresh]), applyUpdates, List.foldl_cons, applyUpdate, stored]
      rfl

variable (undefined) in
theorem applyEntries_plan (domain : Domain) (arrName : String) (items : List Json) (i : Nat)
    (seen : UInt32) {state : Import} (ready : state.manager.initialised = true) :
    (applyEntries undefined domain arrName i items (seen, state)).2.manager =
      applyUpdates undefined state.manager (entriesPlan domain seen items) := by
  induction items generalizing i seen state with
  | nil => rfl
  | cons item items ih =>
      have effect := applyEntry_effect undefined domain arrName i item seen ready
      have kept := effect.frame.1.trans ready
      rw [effect.plan items, applyEntries]
      exact ih (i + 1) _ kept

theorem applyArray_plan {domain : Domain} {state : Import} (arrName : String) (root : Json)
    (ready : state.manager.initialised = true) :
    (applyArray undefined domain arrName root state).manager =
      applyUpdates undefined state.manager
        (entriesPlan domain 0 (arrayEntries root arrName)) := by
  unfold applyArray arrayEntries
  cases cJsonGetObjectItemCaseSensitive root arrName with
  | none => rfl
  | some found =>
      cases found with
      | array items => exact applyEntries_plan undefined domain arrName items 0 0 ready
      | _ => rfl

theorem SystemEffect.plan {child : Json} {state next : Import}
    (effect : SystemEffect undefined child state next) :
    next.manager = applyUpdates undefined state.manager (systemPlan child) := by
  cases effect with
  | malformed text worded shape =>
      cases child with
      | object members => exact absurd ⟨members, rfl⟩ shape
      | _ => rfl
  | refused text worded shape unfit =>
      obtain ⟨members, rfl⟩ := shape
      rw [systemPlan, applyUpdates, List.foldl_cons, List.foldl_nil, applyUpdate, unfit]
      rfl
  | applied record shape stored =>
      obtain ⟨members, rfl⟩ := shape
      rw [systemPlan, applyUpdates, List.foldl_cons, List.foldl_nil, applyUpdate, stored]
      rfl

theorem applyMember_plan {root : Json} {state : Import} {member : List UInt8 × Json}
    (ready : state.manager.initialised = true) :
    (applyMember undefined root state member).manager =
      applyUpdates undefined state.manager (memberPlan root member) := by
  rw [applyMember_eq, memberPlan]
  cases memberRole member.1 with
  | format => rfl
  | unknown => rfl
  | record domain =>
      cases domain with
      | system => exact (importSystem_effect undefined member.2 ready).plan
      | _ => exact applyArray_plan _ root ready

/-- A document is imported by its updates, one after the other. -/
theorem configImportDocument_plan {m : Manager} (ready : m.initialised = true)
    (members : List (List UInt8 × Json)) :
    (configImportDocument undefined (.object members) m).2.manager =
      applyUpdates undefined m (importPlan members) := by
  rw [configImportDocument, importPlan]
  dsimp only
  have loop : ∀ (rest : List (List UInt8 × Json)) (state : Import),
      state.manager.initialised = true →
        (rest.foldl (applyMember undefined (.object members)) state).manager =
          applyUpdates undefined state.manager (rest.flatMap (memberPlan (.object members))) := by
    intro rest
    induction rest with
    | nil => intro state _; rfl
    | cons member rest ih =>
        intro state ready
        rw [List.foldl_cons, ih _ (applyMember_ready ready), applyMember_plan ready,
          List.flatMap_cons, applyUpdates, applyUpdates, applyUpdates, List.foldl_append]
  exact loop members ⟨m, .reset⟩ ready

end Plan

end ConfigWp
