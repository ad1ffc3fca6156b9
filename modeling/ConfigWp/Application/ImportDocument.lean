import ConfigWp.Application.ImportEntries

/-! What an import leaves in the cache. An array decides each record of its type by
the first entry that addresses it, a repeated member name applies the first array
again, which changes nothing more, and no other part of the document counts. -/

set_option autoImplicit false

namespace ConfigWp

/-! The members of a document. -/

def Domain.memberName : Domain → String
  | .di => "di"
  | .do_ => "do"
  | .tc => "tc"
  | .ai => "ai"
  | .ao => "ao"
  | .pcnt => "pcnt"
  | .pwm => "pwm"
  | .system => "system"

inductive MemberRole where
  | format
  | record (domain : Domain)
  | unknown
  deriving DecidableEq, Repr

def memberRole (name : List UInt8) : MemberRole :=
  if strEq name "format" then .format
  else if strEq name "system" then .record .system
  else if strEq name "di" then .record .di
  else if strEq name "do" then .record .do_
  else if strEq name "tc" then .record .tc
  else if strEq name "ai" then .record .ai
  else if strEq name "ao" then .record .ao
  else if strEq name "pcnt" then .record .pcnt
  else if strEq name "pwm" then .record .pwm
  else .unknown

theorem memberRole_eq_record_iff {name : List UInt8} {domain : Domain} :
    memberRole name = .record domain ↔ strEq name domain.memberName = true := by
  constructor
  · intro role
    rw [memberRole] at role
    split_ifs at role <;> cases role <;> assumption
  · intro named
    have same : cString name = ascii domain.memberName := eq_of_beq named
    simp only [memberRole, strEq, same]
    cases domain <;> decide +kernel

section Document

variable (undefined : Rat → Int32)

theorem applyMember_eq (root : Json) (state : Import) (member : List UInt8 × Json) :
    applyMember undefined root state member =
      match memberRole member.1 with
      | .format => state
      | .record .system => importSystem undefined member.2 state
      | .record domain => applyArray undefined domain domain.memberName root state
      | .unknown => { state with report := state.report.skipUnknown } := by
  unfold applyMember memberRole
  split_ifs <;> rfl

/-! One entry. -/

theorem reject_manager (state : Import) (text : String) :
    (state.reject text).manager = state.manager := rfl

theorem malform_manager (state : Import) (text : String) :
    (state.malform text).manager = state.manager := rfl

variable {undefined}

theorem EntryEffect.frame {domain : Domain} {item : Json} {seen : UInt32} {state : Import}
    {next : UInt32 × Import} (effect : EntryEffect undefined domain item seen state next) :
    next.2.manager.initialised = state.manager.initialised ∧
      ∀ key : RecordKey, key.domain ≠ domain →
        next.2.manager.cache.get key = state.manager.cache.get key := by
  cases effect with
  | applied channel record addressed fresh stored =>
      refine ⟨rfl, fun key apart => ConfigCache.get_set_other _ _ ?_⟩
      rintro rfl
      exact apart rfl
  | _ => exact ⟨rfl, fun _ _ => rfl⟩

theorem entryChannel_of_not_object {domain : Domain} {item : Json}
    (shape : ¬∃ members, item = .object members) : entryChannel domain item = none := by
  cases item with
  | object members => exact absurd ⟨members, rfl⟩ shape
  | _ => rfl

theorem EntryEffect.mask {domain : Domain} {item : Json} {seen : UInt32} {state : Import}
    {next : UInt32 × Import} (effect : EntryEffect undefined domain item seen state next)
    (channel : Fin domain.count) :
    maskHas next.1 channel =
      (maskHas seen channel || decide (entryChannel domain item = some channel)) := by
  cases effect with
  | skipped null =>
      subst null
      exact (Bool.or_false _).symm
  | malformed text worded shape present =>
      rw [entryChannel_of_not_object shape]
      exact (Bool.or_false _).symm
  | unaddressed text worded shape nowhere =>
      rw [nowhere]
      exact (Bool.or_false _).symm
  | duplicate text worded place addressed met =>
      rw [addressed]
      by_cases same : place = channel
      · subst same
        rw [met, Bool.true_or]
      · simp only [Option.some.injEq, same, decide_false, Bool.or_false]
  | refused text worded place addressed fresh unfit =>
      simp only [maskHas_channel, addressed, Option.some.injEq]
  | applied place record addressed fresh stored =>
      simp only [maskHas_channel, addressed, Option.some.injEq]

/-- The first entry that addresses a channel decides its record. -/
theorem EntryEffect.stored {domain : Domain} {item : Json} {seen : UInt32} {state : Import}
    {next : UInt32 × Import} (effect : EntryEffect undefined domain item seen state next)
    (channel : Fin domain.count) :
    next.2.manager.cache.get ⟨domain, channel⟩ =
      if maskHas seen channel = false ∧ entryChannel domain item = some channel then
        (storedRecord undefined domain item (state.manager.cache.get ⟨domain, channel⟩)).getD
          (state.manager.cache.get ⟨domain, channel⟩)
      else state.manager.cache.get ⟨domain, channel⟩ := by
  cases effect with
  | skipped null =>
      subst null
      rw [if_neg (by rintro ⟨-, absent⟩; cases absent)]
  | malformed text worded shape present =>
      rw [entryChannel_of_not_object shape, if_neg (by rintro ⟨-, absent⟩; cases absent),
        malform_manager]
  | unaddressed text worded shape nowhere =>
      rw [nowhere, if_neg (by rintro ⟨-, absent⟩; cases absent), reject_manager]
  | duplicate text worded place addressed met =>
      rw [addressed, reject_manager, if_neg]
      rintro ⟨fresh, same⟩
      obtain rfl := Option.some.inj same
      rw [met] at fresh
      cases fresh
  | refused text worded place addressed fresh unfit =>
      rw [addressed, reject_manager]
      by_cases same : place = channel
      · subst same
        rw [unfit, Option.getD_none, ite_self]
      · rw [if_neg fun met => same (Option.some.inj met.2)]
  | applied place record addressed fresh stored =>
      rw [addressed]
      by_cases same : place = channel
      · subst same
        rw [if_pos ⟨fresh, rfl⟩, stored, Option.getD_some]
        exact ConfigCache.get_set_same _ _ _
      · rw [if_neg fun met => same (Option.some.inj met.2)]
        refine ConfigCache.get_set_other _ _ fun clash => ?_
        cases clash
        exact same rfl

/-! One array. -/

/-- The entry that decides the record of a channel. -/
def firstEntry (domain : Domain) (items : List Json) (channel : Fin domain.count) : Option Json :=
  items.find? fun item => entryChannel domain item = some channel

variable (undefined) in
def importedRecord (domain : Domain) (items : List Json) (channel : Fin domain.count)
    (old : domain.Record) : domain.Record :=
  match firstEntry domain items channel with
  | none => old
  | some item => (storedRecord undefined domain item old).getD old

/-- Importing an array a second time changes nothing. -/
theorem importedRecord_again (domain : Domain) (items : List Json) (channel : Fin domain.count)
    (old : domain.Record) :
    importedRecord undefined domain items channel
        (importedRecord undefined domain items channel old) =
      importedRecord undefined domain items channel old := by
  unfold importedRecord
  cases firstEntry domain items channel with
  | none => rfl
  | some item =>
      dsimp only
      cases stored : storedRecord undefined domain item old with
      | none => rw [Option.getD_none, stored, Option.getD_none]
      | some new =>
          rw [Option.getD_some, storedRecord_again undefined stored, Option.getD_some]

theorem applyEntries_frame {domain : Domain} {state : Import} (arrName : String)
    (items : List Json) (i : Nat) (seen : UInt32) (ready : state.manager.initialised = true) :
    (applyEntries undefined domain arrName i items (seen, state)).2.manager.initialised = true ∧
      ∀ key : RecordKey, key.domain ≠ domain →
        (applyEntries undefined domain arrName i items (seen, state)).2.manager.cache.get key =
          state.manager.cache.get key := by
  induction items generalizing i seen state with
  | nil => exact ⟨ready, fun _ _ => rfl⟩
  | cons item items ih =>
      have effect := applyEntry_effect undefined domain arrName i item seen ready
      rw [applyEntries]
      generalize applyEntry undefined domain arrName i item seen state = next at effect ⊢
      obtain ⟨kept, framed⟩ := effect.frame
      obtain ⟨running, rest⟩ := @ih next.2 (i + 1) next.1 (kept.trans ready)
      exact ⟨running, fun key apart => (rest key apart).trans (framed key apart)⟩

theorem applyEntries_record {domain : Domain} {state : Import} (arrName : String)
    (items : List Json) (i : Nat) (seen : UInt32) (ready : state.manager.initialised = true)
    (channel : Fin domain.count) :
    (applyEntries undefined domain arrName i items (seen, state)).2.manager.cache.get
        ⟨domain, channel⟩ =
      if maskHas seen channel then state.manager.cache.get ⟨domain, channel⟩
      else importedRecord undefined domain items channel
        (state.manager.cache.get ⟨domain, channel⟩) := by
  induction items generalizing i seen state with
  | nil => cases maskHas seen channel <;> rfl
  | cons item items ih =>
      have effect := applyEntry_effect undefined domain arrName i item seen ready
      rw [applyEntries]
      generalize applyEntry undefined domain arrName i item seen state = next at effect ⊢
      have marked := effect.mask channel
      have record := effect.stored channel
      rw [@ih next.2 (i + 1) next.1 (effect.frame.1.trans ready), marked, record]
      cases met : maskHas seen channel with
      | true => simp
      | false =>
          by_cases addressed : entryChannel domain item = some channel
          · simp [addressed, importedRecord, firstEntry]
          · simp [addressed, importedRecord, firstEntry]

/-- The array an import reads for a type: the first member of its name. -/
def arrayEntries (root : Json) (arrName : String) : List Json :=
  match cJsonGetObjectItemCaseSensitive root arrName with
  | some (.array items) => items
  | _ => []

theorem applyArray_frame {domain : Domain} {state : Import} (arrName : String) (root : Json)
    (ready : state.manager.initialised = true) :
    (applyArray undefined domain arrName root state).manager.initialised = true ∧
      ∀ key : RecordKey, key.domain ≠ domain →
        (applyArray undefined domain arrName root state).manager.cache.get key =
          state.manager.cache.get key := by
  unfold applyArray
  split
  · exact ⟨ready, fun _ _ => rfl⟩
  · exact ⟨ready, fun _ _ => rfl⟩
  · exact applyEntries_frame arrName _ 0 0 ready
  · exact ⟨ready, fun _ _ => rfl⟩

theorem applyArray_record {domain : Domain} {state : Import} (arrName : String) (root : Json)
    (ready : state.manager.initialised = true) (channel : Fin domain.count) :
    (applyArray undefined domain arrName root state).manager.cache.get ⟨domain, channel⟩ =
      importedRecord undefined domain (arrayEntries root arrName) channel
        (state.manager.cache.get ⟨domain, channel⟩) := by
  unfold applyArray arrayEntries
  cases cJsonGetObjectItemCaseSensitive root arrName with
  | none => rfl
  | some found =>
      cases found with
      | array items =>
          dsimp only
          rw [applyEntries_record arrName items 0 0 ready, maskHas_zero]
          rfl
      | _ => rfl

/-! The system member. -/

theorem storedRecord_of_not_object {domain : Domain} {child : Json}
    (shape : ¬∃ members, child = .object members) (old : domain.Record) :
    (storedRecord undefined domain child old).getD old = old := by
  have patched : patchRecord undefined domain child old = some old := by
    refine (patchRecord_eq_some_iff undefined).mpr fun field => ?_
    rw [patchedFieldOf, patchedField, patchField]
    cases child with
    | object members => exact absurd ⟨members, rfl⟩ shape
    | _ => rfl
  rw [storedRecord, patched, Option.filter_some]
  split_ifs <;> rfl

theorem SystemEffect.frame {child : Json} {state next : Import}
    (effect : SystemEffect undefined child state next) :
    next.manager.initialised = state.manager.initialised ∧
      (∀ key : RecordKey, key.domain ≠ .system →
        next.manager.cache.get key = state.manager.cache.get key) ∧
      next.manager.cache.get .system =
        (storedRecord undefined .system child (state.manager.cache.get .system)).getD
          (state.manager.cache.get .system) := by
  cases effect with
  | malformed text worded shape =>
      refine ⟨rfl, fun _ _ => rfl, ?_⟩
      rw [malform_manager]
      exact (storedRecord_of_not_object shape _).symm
  | refused text worded shape unfit =>
      refine ⟨rfl, fun _ _ => rfl, ?_⟩
      rw [reject_manager, unfit, Option.getD_none]
  | applied record shape stored =>
      refine ⟨rfl, fun key apart => ConfigCache.get_set_other _ _ ?_, ?_⟩
      · rintro rfl
        exact apart rfl
      · rw [stored, Option.getD_some]
        exact ConfigCache.get_set_same state.manager.cache .system record

/-! The whole document. -/

theorem applyMember_ready {root : Json} {state : Import} {member : List UInt8 × Json}
    (ready : state.manager.initialised = true) :
    (applyMember undefined root state member).manager.initialised = true := by
  rw [applyMember_eq]
  split
  · exact ready
  · exact (importSystem_effect undefined member.2 ready).frame.1.trans ready
  · exact (applyArray_frame _ root ready).1
  · exact ready

/-- What one member does to a record of the arrays. -/
theorem applyMember_record {root : Json} {state : Import} {member : List UInt8 × Json}
    (ready : state.manager.initialised = true) {domain : Domain} (io : domain ≠ .system)
    (channel : Fin domain.count) :
    (applyMember undefined root state member).manager.cache.get ⟨domain, channel⟩ =
      if memberRole member.1 = .record domain then
        importedRecord undefined domain (arrayEntries root domain.memberName) channel
          (state.manager.cache.get ⟨domain, channel⟩)
      else state.manager.cache.get ⟨domain, channel⟩ := by
  rw [applyMember_eq]
  cases role : memberRole member.1 with
  | format => simp
  | unknown => simp
  | record other =>
      by_cases same : other = domain
      · subst same
        rw [if_pos rfl]
        split
        · cases ‹MemberRole.record other = .format›
        · cases ‹MemberRole.record other = .record .system›
          exact absurd rfl io
        · cases ‹MemberRole.record other = .record _›
          exact applyArray_record _ root ready channel
        · cases ‹MemberRole.record other = .unknown›
      · rw [if_neg (by simp [same])]
        split
        · rfl
        · exact (importSystem_effect undefined member.2 ready).frame.2.1 ⟨domain, channel⟩ io
        · cases ‹MemberRole.record other = .record _›
          exact (applyArray_frame _ root ready).2 ⟨domain, channel⟩ (Ne.symm same)
        · rfl

variable (undefined) in
/-- What the system members do to the system record, one after the other. -/
def importedSystem (members : List (List UInt8 × Json)) (old : SystemConfig) : SystemConfig :=
  (members.filter fun member => memberRole member.1 = .record .system).foldl
    (fun record member => (storedRecord undefined .system member.2 record).getD record) old

theorem applyMember_system {root : Json} {state : Import} {member : List UInt8 × Json}
    (ready : state.manager.initialised = true) :
    (applyMember undefined root state member).manager.cache.get .system =
      importedSystem undefined [member] (state.manager.cache.get .system) := by
  rw [applyMember_eq, importedSystem]
  cases role : memberRole member.1 with
  | format => simp [role]
  | unknown => simp [role]
  | record domain =>
      cases domain with
      | system =>
          simp only [role, List.filter_cons, List.filter_nil, decide_true, if_true,
            List.foldl_cons, List.foldl_nil]
          exact (importSystem_effect undefined member.2 ready).frame.2.2
      | _ =>
          simp only [role, List.filter_cons, List.filter_nil, reduceCtorEq, MemberRole.record.injEq,
            decide_false, Bool.false_eq_true, if_false, List.foldl_nil]
          exact (applyArray_frame _ root ready).2 .system (by decide)

theorem applyMembers_system {root : Json} {members : List (List UInt8 × Json)} {state : Import}
    (ready : state.manager.initialised = true) :
    (members.foldl (applyMember undefined root) state).manager.cache.get .system =
      importedSystem undefined members (state.manager.cache.get .system) := by
  induction members generalizing state with
  | nil => rfl
  | cons member members ih =>
      rw [List.foldl_cons, ih (applyMember_ready ready), applyMember_system ready, importedSystem,
        importedSystem, importedSystem, ← List.foldl_append, ← List.filter_append]
      rfl

theorem applyMembers_record {root : Json} {members : List (List UInt8 × Json)} {state : Import}
    (ready : state.manager.initialised = true) {domain : Domain} (io : domain ≠ .system)
    (channel : Fin domain.count) :
    (members.foldl (applyMember undefined root) state).manager.cache.get ⟨domain, channel⟩ =
      if ∃ member ∈ members, memberRole member.1 = .record domain then
        importedRecord undefined domain (arrayEntries root domain.memberName) channel
          (state.manager.cache.get ⟨domain, channel⟩)
      else state.manager.cache.get ⟨domain, channel⟩ := by
  induction members generalizing state with
  | nil => simp
  | cons member members ih =>
      rw [List.foldl_cons, ih (applyMember_ready ready), applyMember_record ready io channel]
      by_cases here : memberRole member.1 = .record domain
      · have present : ∃ other ∈ member :: members, memberRole other.1 = .record domain :=
          ⟨member, List.mem_cons_self, here⟩
        rw [if_pos here, if_pos present, importedRecord_again, ite_self]
      · simp only [List.exists_mem_cons_iff, here, false_or, if_false]

theorem arrayEntries_of_absent {members : List (List UInt8 × Json)} {domain : Domain}
    (absent : ¬∃ member ∈ members, memberRole member.1 = .record domain) :
    arrayEntries (.object members) domain.memberName = [] := by
  have lookup : cJsonGetObjectItemCaseSensitive (.object members) domain.memberName = none := by
    rw [cJsonGetObjectItemCaseSensitive, Option.map_eq_none_iff, List.find?_eq_none]
    intro member there named
    exact absent ⟨member, there, memberRole_eq_record_iff.mpr named⟩
  rw [arrayEntries, lookup]

variable (undefined) in
/-- The patch of an entry: every recognised member that is present and not null is well
formed and replaces its field, every other field stays, and the outcome is valid. -/
def EntryFits (domain : Domain) (item : Json) (old new : domain.Record) : Prop :=
  (∀ field, patchedFieldOf undefined domain item old field = some (fieldOf domain new field)) ∧
    validate domain new = true

theorem storedRecord_iff_fits {domain : Domain} {item : Json} {old new : domain.Record} :
    storedRecord undefined domain item old = some new ↔
      EntryFits undefined domain item old new := by
  rw [storedRecord_eq_some_iff, patchRecord_eq_some_iff, EntryFits]

theorem importedRecord_of_fits {domain : Domain} {items : List Json} {channel : Fin domain.count}
    {item : Json} {old new : domain.Record} (first : firstEntry domain items channel = some item)
    (fits : EntryFits undefined domain item old new) :
    importedRecord undefined domain items channel old = new := by
  rw [importedRecord, first]
  dsimp only
  rw [storedRecord_iff_fits.mpr fits, Option.getD_some]

theorem importedRecord_of_unfit {domain : Domain} {items : List Json} {channel : Fin domain.count}
    {old : domain.Record} (unfit : ¬∃ item new, firstEntry domain items channel = some item ∧
      EntryFits undefined domain item old new) :
    importedRecord undefined domain items channel old = old := by
  rw [importedRecord]
  cases first : firstEntry domain items channel with
  | none => rfl
  | some item =>
      dsimp only
      cases stored : storedRecord undefined domain item old with
      | none => rfl
      | some new => exact absurd ⟨item, new, first, storedRecord_iff_fits.mp stored⟩ unfit

theorem configImportDocument_array {m : Manager} (ready : m.initialised = true)
    (members : List (List UInt8 × Json)) {domain : Domain} (io : domain ≠ .system)
    (channel : Fin domain.count) :
    (configImportDocument undefined (.object members) m).2.manager.cache.get ⟨domain, channel⟩ =
      importedRecord undefined domain (arrayEntries (.object members) domain.memberName) channel
        (m.cache.get ⟨domain, channel⟩) := by
  have folded := @applyMembers_record undefined (.object members) members ⟨m, .reset⟩ ready
    domain io channel
  rw [configImportDocument]
  refine folded.trans ?_
  split_ifs with present
  · rfl
  · rw [arrayEntries_of_absent present]
    rfl

theorem configImportDocument_system {m : Manager} (ready : m.initialised = true)
    (members : List (List UInt8 × Json)) :
    (configImportDocument undefined (.object members) m).2.manager.cache.system =
      importedSystem undefined members m.cache.system :=
  @applyMembers_system undefined (.object members) members ⟨m, .reset⟩ ready

variable (undefined) in
/-- An import leaves at each channel the cached record patched by the first entry of the
first array of its type that addresses the channel, when that patch fits, and the
cached record otherwise. The system record sees the system members only. -/
theorem configImportDocument_records {m : Manager} (ready : m.initialised = true)
    (members : List (List UInt8 × Json)) :
    let root := Json.object members
    let outcome := configImportDocument undefined root m
    outcome.1 = .ok () ∧
      (∀ (domain : Domain), domain ≠ .system → ∀ (channel : Fin domain.count),
        (∀ item new, firstEntry domain (arrayEntries root domain.memberName) channel = some item →
          EntryFits undefined domain item (m.cache.get ⟨domain, channel⟩) new →
            outcome.2.manager.cache.get ⟨domain, channel⟩ = new) ∧
        ((¬∃ item new, firstEntry domain (arrayEntries root domain.memberName) channel =
            some item ∧ EntryFits undefined domain item (m.cache.get ⟨domain, channel⟩) new) →
          outcome.2.manager.cache.get ⟨domain, channel⟩ = m.cache.get ⟨domain, channel⟩)) ∧
      outcome.2.manager.cache.system = importedSystem undefined members m.cache.system := by
  refine ⟨rfl, ?_, configImportDocument_system ready members⟩
  intro domain io channel
  rw [configImportDocument_array ready members io channel]
  refine ⟨?_, importedRecord_of_unfit⟩
  intro item new first fits
  exact importedRecord_of_fits first fits

end Document

/-- Two entries for channel 2: the first one decides. -/
def twiceAddressed : List (List UInt8 × Json) :=
  [(ascii "di", .array
    [.object [(ascii "channel", .number 2), (ascii "debounce_ms", .number 7)],
      .object [(ascii "channel", .number 2), (ascii "debounce_ms", .number 9)]])]

theorem configImportDocument_first_wins :
    (configImportDocument (fun _ => int32Min) (.object twiceAddressed)
        .atDefaults).2.manager.cache.get ⟨.di, ⟨2, by decide⟩⟩ =
      { diDefault with debounceMs := 7 } := by
  obtain ⟨-, arrays, -⟩ :=
    @configImportDocument_records (fun _ => int32Min) .atDefaults rfl twiceAddressed
  refine (arrays .di (by decide) ⟨2, by decide⟩).1 _ _ rfl ?_
  refine storedRecord_iff_fits.mp ?_
  decide +kernel

end ConfigWp
