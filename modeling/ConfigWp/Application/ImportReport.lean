import ConfigWp.Application.ImportDocument
import Mathlib.Algebra.BigOperators.Group.Finset.Piecewise

/-! The report of an import. The verdicts on the entries of a document depend on the
document and the cached records only; the counters tally the verdicts in the order the
loop meets them, and the loop meets the first member of a repeated name each time. -/

set_option autoImplicit false

namespace ConfigWp

inductive Verdict where
  | accepted
  | rejected
  | malformed
  deriving DecidableEq, Repr

/-! A tally in a report. -/

/-- The report `next` adds the verdicts of `log` and some unknown keys to `report`. -/
structure ImportReport.Logs (report next : ImportReport) (log : List Verdict) (unknown : Nat) :
    Prop where
  accepted : next.accepted = report.accepted + UInt16.ofNat (log.count .accepted)
  rejected : next.rejected = report.rejected + UInt16.ofNat (log.count .rejected)
  malformed : next.malformed = report.malformed + UInt16.ofNat (log.count .malformed)
  unknownKeys : next.unknownKeys = report.unknownKeys + UInt16.ofNat unknown
  firstError : next.firstError = "" ↔
    report.firstError = "" ∧ log.count .rejected = 0 ∧ log.count .malformed = 0

namespace ImportReport.Logs

theorem refl (report : ImportReport) : report.Logs report [] 0 :=
  ⟨by simp, by simp, by simp, by simp, by simp⟩

theorem trans {report middle next : ImportReport} {log rest : List Verdict}
    {unknown more : Nat} (first : report.Logs middle log unknown)
    (last : middle.Logs next rest more) : report.Logs next (log ++ rest) (unknown + more) := by
  constructor
  · rw [last.accepted, first.accepted, List.count_append, UInt16.ofNat_add, UInt16.add_assoc]
  · rw [last.rejected, first.rejected, List.count_append, UInt16.ofNat_add, UInt16.add_assoc]
  · rw [last.malformed, first.malformed, List.count_append, UInt16.ofNat_add, UInt16.add_assoc]
  · rw [last.unknownKeys, first.unknownKeys, UInt16.ofNat_add, UInt16.add_assoc]
  · rw [last.firstError, first.firstError, List.count_append, List.count_append,
      Nat.add_eq_zero_iff, Nat.add_eq_zero_iff]
    tauto

end ImportReport.Logs

private theorem noteFirstError_ne {report : ImportReport} {text : String} (worded : text ≠ "") :
    (report.noteFirstError text).firstError ≠ "" := by
  rw [ImportReport.noteFirstError]
  split_ifs with noted
  · exact noted
  · intro empty
    obtain ⟨letter, letters, spelled⟩ := List.exists_cons_of_ne_nil
      (fun nothing => worded (String.toList_eq_nil_iff.mp nothing))
    have shortened := congrArg String.toList empty
    rw [String.toList_ofList, spelled, firstErrorBytes] at shortened
    cases shortened

theorem noteFirstError_counters (report : ImportReport) (text : String) :
    (report.noteFirstError text).accepted = report.accepted ∧
      (report.noteFirstError text).rejected = report.rejected ∧
      (report.noteFirstError text).malformed = report.malformed ∧
      (report.noteFirstError text).unknownKeys = report.unknownKeys := by
  rw [ImportReport.noteFirstError]
  split_ifs <;> exact ⟨rfl, rfl, rfl, rfl⟩

theorem accept_logs (state : Import) (manager : Manager) :
    state.report.Logs (state.accept manager).report [.accepted] 0 :=
  ⟨rfl, by simp [Import.accept, ImportReport.accept], by simp [Import.accept, ImportReport.accept],
    by simp [Import.accept, ImportReport.accept], by simp [Import.accept, ImportReport.accept]⟩

theorem reject_logs (state : Import) {text : String} (worded : text ≠ "") :
    state.report.Logs (state.reject text).report [.rejected] 0 := by
  obtain ⟨accepted, rejected, malformed, unknownKeys⟩ :=
    noteFirstError_counters state.report text
  refine ⟨?_, ?_, ?_, ?_, ?_⟩
  · simpa [Import.reject, ImportReport.reject] using accepted
  · simpa [Import.reject, ImportReport.reject] using rejected
  · simpa [Import.reject, ImportReport.reject] using malformed
  · simpa [Import.reject, ImportReport.reject] using unknownKeys
  · simpa [Import.reject, ImportReport.reject] using noteFirstError_ne worded

theorem malform_logs (state : Import) {text : String} (worded : text ≠ "") :
    state.report.Logs (state.malform text).report [.malformed] 0 := by
  obtain ⟨accepted, rejected, malformed, unknownKeys⟩ :=
    noteFirstError_counters state.report text
  refine ⟨?_, ?_, ?_, ?_, ?_⟩
  · simpa [Import.malform, ImportReport.malform] using accepted
  · simpa [Import.malform, ImportReport.malform] using rejected
  · simpa [Import.malform, ImportReport.malform] using malformed
  · simpa [Import.malform, ImportReport.malform] using unknownKeys
  · simpa [Import.malform, ImportReport.malform] using noteFirstError_ne worded

theorem skipUnknown_logs (report : ImportReport) : report.Logs report.skipUnknown [] 1 :=
  ⟨by simp [ImportReport.skipUnknown], by simp [ImportReport.skipUnknown],
    by simp [ImportReport.skipUnknown], rfl, by simp [ImportReport.skipUnknown]⟩

section Verdicts

variable (undefined : Rat → Int32)

/-! One entry. -/

/-- The verdict on an entry after the entries before it: none for a null. -/
def entryVerdict (domain : Domain) (old : Fin domain.count → domain.Record) (before : List Json)
    (item : Json) : Option Verdict :=
  match item with
  | .null => none
  | .object _ =>
      match entryChannel domain item with
      | none => some .rejected
      | some channel =>
          if (firstEntry domain before channel).isNone ∧
              (storedRecord undefined domain item (old channel)).isSome then some .accepted
          else some .rejected
  | _ => some .malformed

def entryVerdicts (domain : Domain) (old : Fin domain.count → domain.Record) :
    List Json → List Json → List Verdict
  | _, [] => []
  | before, item :: items =>
      (entryVerdict undefined domain old before item).toList ++
        entryVerdicts domain old (before ++ [item]) items

/-- What the loop over an array has met: the mask is the set of channels addressed, and
the records of the other channels are as they were. -/
structure Scanned (domain : Domain) (old : Fin domain.count → domain.Record)
    (before : List Json) (seen : UInt32) (state : Import) : Prop where
  ready : state.manager.initialised = true
  mask : ∀ channel : Fin domain.count,
    maskHas seen channel = (firstEntry domain before channel).isSome
  fresh : ∀ channel : Fin domain.count, maskHas seen channel = false →
    state.manager.cache.get ⟨domain, channel⟩ = old channel

variable {undefined}

theorem firstEntry_append (domain : Domain) (before : List Json) (item : Json)
    (channel : Fin domain.count) :
    (firstEntry domain (before ++ [item]) channel).isSome =
      ((firstEntry domain before channel).isSome ||
        decide (entryChannel domain item = some channel)) := by
  rw [firstEntry, List.find?_append, firstEntry]
  cases List.find? (fun item => decide (entryChannel domain item = some channel)) before with
  | some first => rfl
  | none =>
      cases addressed : decide (entryChannel domain item = some channel) with
      | true => simp [addressed]
      | false => simp [addressed]

theorem Scanned.next {domain : Domain} {old : Fin domain.count → domain.Record}
    {before : List Json} {seen : UInt32} {state : Import} {item : Json} {next : UInt32 × Import}
    (scanned : Scanned domain old before seen state)
    (effect : EntryEffect undefined domain item seen state next) :
    Scanned domain old (before ++ [item]) next.1 next.2 := by
  refine ⟨effect.frame.1.trans scanned.ready, ?_, ?_⟩
  · intro channel
    rw [effect.mask channel, scanned.mask channel, firstEntry_append]
  · intro channel unmet
    have marked := effect.mask channel
    have record := effect.stored channel
    rw [marked, Bool.or_eq_false_iff, decide_eq_false_iff_not] at unmet
    rw [record, if_neg (fun addressed => unmet.2 addressed.2)]
    exact scanned.fresh channel unmet.1

theorem EntryEffect.logs {domain : Domain} {old : Fin domain.count → domain.Record}
    {before : List Json} {seen : UInt32} {state : Import} {item : Json} {next : UInt32 × Import}
    (scanned : Scanned domain old before seen state)
    (effect : EntryEffect undefined domain item seen state next) :
    state.report.Logs next.2.report (entryVerdict undefined domain old before item).toList 0 := by
  cases effect with
  | skipped null =>
      subst null
      exact .refl state.report
  | malformed text worded shape present =>
      have verdict : entryVerdict undefined domain old before item = some .malformed := by
        cases item with
        | null => exact absurd rfl present
        | object members => exact absurd ⟨members, rfl⟩ shape
        | _ => rfl
      rw [verdict]
      exact malform_logs state worded
  | unaddressed text worded shape nowhere =>
      obtain ⟨members, rfl⟩ := shape
      rw [entryVerdict, nowhere]
      exact reject_logs state worded
  | duplicate text worded channel addressed met =>
      have verdict : entryVerdict undefined domain old before item = some .rejected := by
        cases item with
        | object members =>
            rw [scanned.mask channel] at met
            rw [entryVerdict, addressed]
            exact if_neg (fun both => by simp [Option.isNone_iff_eq_none.mp both.1] at met)
        | _ => cases addressed
      rw [verdict]
      exact reject_logs state worded
  | refused text worded channel addressed fresh unfit =>
      have verdict : entryVerdict undefined domain old before item = some .rejected := by
        cases item with
        | object members =>
            rw [scanned.fresh channel fresh] at unfit
            rw [entryVerdict, addressed]
            exact if_neg (fun both => by simp [unfit] at both)
        | _ => cases addressed
      rw [verdict]
      exact reject_logs state worded
  | applied channel record addressed fresh stored =>
      have verdict : entryVerdict undefined domain old before item = some .accepted := by
        cases item with
        | object members =>
            rw [scanned.fresh channel fresh] at stored
            rw [scanned.mask channel] at fresh
            rw [entryVerdict, addressed]
            exact if_pos ⟨by simpa using fresh, by simp [stored]⟩
        | _ => cases addressed
      rw [verdict]
      exact accept_logs state _

theorem applyEntries_logs {domain : Domain} {old : Fin domain.count → domain.Record}
    (arrName : String) (before items : List Json) (i : Nat) {seen : UInt32} {state : Import}
    (scanned : Scanned domain old before seen state) :
    state.report.Logs (applyEntries undefined domain arrName i items (seen, state)).2.report
      (entryVerdicts undefined domain old before items) 0 := by
  induction items generalizing before i seen state with
  | nil => exact .refl state.report
  | cons item items ih =>
      have effect := applyEntry_effect undefined domain arrName i item seen scanned.ready
      rw [applyEntries]
      generalize applyEntry undefined domain arrName i item seen state = next at effect ⊢
      exact (effect.logs scanned).trans (ih (before ++ [item]) (i + 1) (scanned.next effect))

/-! One array. -/

theorem storedRecord_isSome_again {domain : Domain} (item : Json) (old : domain.Record) :
    (storedRecord undefined domain item
        ((storedRecord undefined domain item old).getD old)).isSome =
      (storedRecord undefined domain item old).isSome := by
  cases stored : storedRecord undefined domain item old with
  | none => rw [Option.getD_none, stored]
  | some record => rw [Option.getD_some, storedRecord_again undefined stored]

theorem entryVerdict_imported {domain : Domain} (old : Fin domain.count → domain.Record)
    (before : List Json) (item : Json) (items : List Json) :
    entryVerdict undefined domain
        (fun channel => importedRecord undefined domain (before ++ item :: items) channel
          (old channel)) before item =
      entryVerdict undefined domain old before item := by
  cases item with
  | object members =>
      rw [entryVerdict, entryVerdict]
      cases addressed : entryChannel domain (.object members) with
      | none => rfl
      | some channel =>
          dsimp only
          cases first : firstEntry domain before channel with
          | some earlier => rfl
          | none =>
              have found : firstEntry domain (before ++ .object members :: items) channel =
                  some (.object members) := by
                rw [firstEntry] at first ⊢
                rw [List.find?_append, first, Option.none_or]
                exact List.find?_cons_of_pos (decide_eq_true addressed)
              rw [importedRecord, found]
              dsimp only
              rw [storedRecord_isSome_again]
  | _ => rfl

/-- The verdicts on an array are the same when it is applied again. -/
theorem entryVerdicts_imported {domain : Domain} (old : Fin domain.count → domain.Record)
    (before items : List Json) :
    entryVerdicts undefined domain
        (fun channel => importedRecord undefined domain (before ++ items) channel (old channel))
        before items =
      entryVerdicts undefined domain old before items := by
  induction items generalizing before with
  | nil => rfl
  | cons item items ih =>
      have rest := ih (before ++ [item])
      rw [List.append_assoc, List.singleton_append] at rest
      rw [entryVerdicts, entryVerdicts, entryVerdict_imported, rest]

variable (undefined) in
/-- The verdicts on the first member of a name, which is what the loop looks up. -/
def firstVerdicts (cache : ConfigCache) (root : Json) (domain : Domain) : List Verdict :=
  match cJsonGetObjectItemCaseSensitive root domain.memberName with
  | none => []
  | some .null => []
  | some (.array items) =>
      entryVerdicts undefined domain (fun channel => cache.get ⟨domain, channel⟩) [] items
  | some _ => [.malformed]

theorem applyArray_logs {cache : ConfigCache} {domain : Domain} {root : Json} {state : Import}
    (ready : state.manager.initialised = true)
    (walked : (∀ channel, state.manager.cache.get ⟨domain, channel⟩ =
          cache.get ⟨domain, channel⟩) ∨
      ∀ channel, state.manager.cache.get ⟨domain, channel⟩ =
        importedRecord undefined domain (arrayEntries root domain.memberName) channel
          (cache.get ⟨domain, channel⟩)) :
    state.report.Logs (applyArray undefined domain domain.memberName root state).report
      (firstVerdicts undefined cache root domain) 0 := by
  unfold applyArray firstVerdicts
  rw [arrayEntries] at walked
  cases found : cJsonGetObjectItemCaseSensitive root domain.memberName with
  | none => exact .refl state.report
  | some child =>
      rw [found] at walked
      cases child with
      | null => exact .refl state.report
      | array items =>
          have logged := @applyEntries_logs undefined domain
            (fun channel => state.manager.cache.get ⟨domain, channel⟩) domain.memberName [] items
            0 0 state ⟨ready, fun channel => maskHas_zero channel, fun _ _ => rfl⟩
          rcases walked with kept | imported
          · rw [funext kept] at logged
            exact logged
          · rw [funext imported] at logged
            have again := @entryVerdicts_imported undefined domain
              (fun channel => cache.get ⟨domain, channel⟩) [] items
            rw [List.nil_append] at again
            dsimp only at logged
            rw [again] at logged
            exact logged
      | _ => exact malform_logs state (by cases domain <;> decide)

/-! The system member and the whole document. -/

variable (undefined) in
def systemVerdict (record : SystemConfig) (child : Json) : Verdict :=
  match child with
  | .object _ =>
      if (storedRecord undefined .system child record).isSome then .accepted else .rejected
  | _ => .malformed

theorem SystemEffect.logs {child : Json} {state next : Import}
    (effect : SystemEffect undefined child state next) :
    state.report.Logs next.report
      [systemVerdict undefined (state.manager.cache.get .system) child] 0 := by
  cases effect with
  | malformed text worded shape =>
      have verdict : systemVerdict undefined (state.manager.cache.get .system) child =
          .malformed := by
        cases child with
        | object members => exact absurd ⟨members, rfl⟩ shape
        | _ => rfl
      rw [verdict]
      exact malform_logs state worded
  | refused text worded shape unfit =>
      obtain ⟨members, rfl⟩ := shape
      rw [systemVerdict, unfit]
      exact reject_logs state worded
  | applied record shape stored =>
      obtain ⟨members, rfl⟩ := shape
      rw [systemVerdict, stored]
      exact accept_logs state _

variable (undefined) in
def memberVerdicts (cache : ConfigCache) (root : Json) (record : SystemConfig)
    (member : List UInt8 × Json) : List Verdict :=
  match memberRole member.1 with
  | .record .system => [systemVerdict undefined record member.2]
  | .record domain => firstVerdicts undefined cache root domain
  | _ => []

variable (undefined) in
/-- The verdicts in the order of the loop, the system record carried along. -/
def documentVerdicts (cache : ConfigCache) (root : Json) :
    SystemConfig → List (List UInt8 × Json) → List Verdict
  | _, [] => []
  | record, member :: members =>
      memberVerdicts undefined cache root record member ++
        documentVerdicts cache root (importedSystem undefined [member] record) members

def unknownMembers (members : List (List UInt8 × Json)) : Nat :=
  members.countP fun member => memberRole member.1 = .unknown

variable (undefined) in
/-- Where the loop over the members stands: each array was applied or not, and the
system members so far left the record. -/
structure Walked (cache : ConfigCache) (root : Json) (record : SystemConfig) (state : Import) :
    Prop where
  ready : state.manager.initialised = true
  arrays : ∀ domain : Domain, domain ≠ .system →
    (∀ channel, state.manager.cache.get ⟨domain, channel⟩ = cache.get ⟨domain, channel⟩) ∨
    ∀ channel, state.manager.cache.get ⟨domain, channel⟩ =
      importedRecord undefined domain (arrayEntries root domain.memberName) channel
        (cache.get ⟨domain, channel⟩)
  system : state.manager.cache.get .system = record

theorem Walked.next {cache : ConfigCache} {root : Json} {record : SystemConfig} {state : Import}
    (walked : Walked undefined cache root record state) (member : List UInt8 × Json) :
    Walked undefined cache root (importedSystem undefined [member] record)
      (applyMember undefined root state member) := by
  refine ⟨applyMember_ready walked.ready, ?_, ?_⟩
  · intro domain io
    by_cases here : memberRole member.1 = .record domain
    · refine .inr fun channel => ?_
      rw [applyMember_record walked.ready io channel, if_pos here]
      rcases walked.arrays domain io with kept | imported
      · rw [kept channel]
      · rw [imported channel, importedRecord_again]
    · refine (walked.arrays domain io).imp (fun kept channel => ?_) fun imported channel => ?_
      · rw [applyMember_record walked.ready io channel, if_neg here, kept channel]
      · rw [applyMember_record walked.ready io channel, if_neg here, imported channel]
  · rw [applyMember_system walked.ready, walked.system]

theorem applyMember_logs {cache : ConfigCache} {root : Json} {record : SystemConfig}
    {state : Import} (walked : Walked undefined cache root record state)
    (member : List UInt8 × Json) :
    state.report.Logs (applyMember undefined root state member).report
      (memberVerdicts undefined cache root record member) (unknownMembers [member]) := by
  rw [applyMember_eq, memberVerdicts, unknownMembers, List.countP_singleton]
  cases role : memberRole member.1 with
  | format => exact .refl state.report
  | unknown => exact skipUnknown_logs state.report
  | record domain =>
      cases domain with
      | system =>
          have effect := importSystem_effect undefined member.2 walked.ready
          rw [← walked.system]
          exact effect.logs
      | _ => exact applyArray_logs walked.ready (walked.arrays _ (by decide))

theorem applyMembers_logs {cache : ConfigCache} {root : Json} {record : SystemConfig}
    {state : Import} (members : List (List UInt8 × Json))
    (walked : Walked undefined cache root record state) :
    state.report.Logs (members.foldl (applyMember undefined root) state).report
      (documentVerdicts undefined cache root record members) (unknownMembers members) := by
  induction members generalizing record state with
  | nil => exact .refl state.report
  | cons member members ih =>
      have first := applyMember_logs walked member
      have split : unknownMembers (member :: members) =
          unknownMembers [member] + unknownMembers members := by
        rw [unknownMembers, ← List.singleton_append, List.countP_append]
        rfl
      rw [split]
      exact first.trans (ih (walked.next member))

/-! The members by name. -/

def Domain.arrays : Finset Domain := {.di, .do_, .tc, .ai, .ao, .pcnt, .pwm}

theorem Domain.mem_arrays {domain : Domain} : domain ∈ Domain.arrays ↔ domain ≠ .system := by
  cases domain <;> decide

def named (domain : Domain) (members : List (List UInt8 × Json)) : List (List UInt8 × Json) :=
  members.filter fun member => memberRole member.1 = .record domain

theorem lookup_eq_head (members : List (List UInt8 × Json)) (domain : Domain) :
    cJsonGetObjectItemCaseSensitive (.object members) domain.memberName =
      (named domain members).head?.map Prod.snd := by
  rw [cJsonGetObjectItemCaseSensitive, named, List.head?_filter]
  congr 2
  funext member
  rw [Bool.eq_iff_iff, decide_eq_true_iff, memberRole_eq_record_iff]

theorem named_cons (domain : Domain) (member : List UInt8 × Json)
    (members : List (List UInt8 × Json)) :
    named domain (member :: members) =
      if memberRole member.1 = .record domain then member :: named domain members
      else named domain members := by
  rw [named, named, List.filter_cons]
  simp only [decide_eq_true_iff]

theorem role_of_named {domain : Domain} {members : List (List UInt8 × Json)}
    {member : List UInt8 × Json} (chosen : member ∈ named domain members) :
    memberRole member.1 = .record domain :=
  of_decide_eq_true (List.mem_filter.mp chosen).2

/-- A sum over the members that have a record role, taken name by name. -/
theorem sum_by_name (weight : List UInt8 × Json → Nat) (members : List (List UInt8 × Json))
    (nothing : ∀ member ∈ members, (∀ domain, memberRole member.1 ≠ .record domain) →
      weight member = 0) :
    (members.map weight).sum =
      ∑ domain ∈ Domain.arrays, ((named domain members).map weight).sum +
        ((named .system members).map weight).sum := by
  have one : ∀ (member : List UInt8 × Json) (rest : List (List UInt8 × Json)) (domain : Domain),
      ((named domain (member :: rest)).map weight).sum =
        (if memberRole member.1 = .record domain then weight member else 0) +
          ((named domain rest).map weight).sum := by
    intro member rest domain
    rw [named_cons]
    split_ifs with here
    · rfl
    · rw [Nat.zero_add]
  induction members with
  | nil => rfl
  | cons member members ih =>
      have rest := ih fun other there => nothing other (List.mem_cons_of_mem member there)
      rw [List.map_cons, List.sum_cons, rest, one member members .system,
        Finset.sum_congr rfl fun domain _ => one member members domain, Finset.sum_add_distrib]
      have alone : weight member =
          (∑ domain ∈ Domain.arrays,
            if memberRole member.1 = .record domain then weight member else 0) +
          if memberRole member.1 = .record .system then weight member else 0 := by
        cases role : memberRole member.1 with
        | record domain =>
            simp only [MemberRole.record.injEq, Finset.sum_ite_eq, Domain.mem_arrays]
            by_cases system : domain = .system
            · simp [system]
            · simp [system]
        | format => simpa using nothing member List.mem_cons_self (by simp [role])
        | unknown => simpa using nothing member List.mem_cons_self (by simp [role])
      omega

/-! What a document offers. -/

def Json.isNull : Json → Bool
  | .null => true
  | _ => false

/-- The entries a member of an array name offers: the entries that are not null, or the
member itself when it is neither an array nor null. -/
def arrayOffers (child : Json) : Nat :=
  match child with
  | .array items => items.countP fun item => !item.isNull
  | .null => 0
  | _ => 1

def memberOffers (member : List UInt8 × Json) : Nat :=
  match memberRole member.1 with
  | .record .system => 1
  | .record _ => arrayOffers member.2
  | _ => 0

def offered (members : List (List UInt8 × Json)) : Nat := (members.map memberOffers).sum

theorem entryVerdicts_length (domain : Domain) (old : Fin domain.count → domain.Record)
    (before items : List Json) :
    (entryVerdicts undefined domain old before items).length =
      items.countP fun item => !item.isNull := by
  have one : ∀ (earlier : List Json) (item : Json),
      (entryVerdict undefined domain old earlier item).toList.length =
        if !item.isNull then 1 else 0 := by
    intro earlier item
    cases item with
    | object members =>
        rw [entryVerdict]
        cases entryChannel domain (.object members) with
        | none => rfl
        | some channel =>
            dsimp only
            split_ifs <;> first | rfl | simp_all [Json.isNull]
    | _ => rfl
  induction items generalizing before with
  | nil => rfl
  | cons item items ih =>
      rw [entryVerdicts, List.length_append, ih, one, List.countP_cons, Nat.add_comm]

theorem firstVerdicts_length (cache : ConfigCache) (members : List (List UInt8 × Json))
    (domain : Domain) :
    (firstVerdicts undefined cache (.object members) domain).length =
      ((named domain members).head?.map fun member => arrayOffers member.2).getD 0 := by
  rw [firstVerdicts, lookup_eq_head]
  cases (named domain members).head? with
  | none => rfl
  | some member =>
      obtain ⟨name, child⟩ := member
      cases child with
      | array items => exact entryVerdicts_length domain _ [] items
      | _ => rfl

theorem length_eq_counts (log : List Verdict) :
    log.length = log.count .accepted + log.count .rejected + log.count .malformed := by
  induction log with
  | nil => rfl
  | cons verdict log ih =>
      cases verdict with
      | accepted => simp [ih]; omega
      | rejected => simp [ih]; omega
      | malformed => simp [ih]; omega

/-! The tallies. -/

variable (undefined) in
def systemVerdicts : SystemConfig → List Json → List Verdict
  | _, [] => []
  | record, child :: children =>
      systemVerdict undefined record child ::
        systemVerdicts ((storedRecord undefined .system child record).getD record) children

theorem systemVerdicts_length (record : SystemConfig) (children : List Json) :
    (systemVerdicts undefined record children).length = children.length := by
  induction children generalizing record with
  | nil => rfl
  | cons child children ih => rw [systemVerdicts, List.length_cons, List.length_cons, ih]

section Tallies

variable (undefined) (cache : ConfigCache) (members : List (List UInt8 × Json))

/-- The entries with a verdict, those of the first member of each array name counted
once. -/
def once (verdict : Verdict) : Nat :=
  ∑ domain ∈ Domain.arrays,
      (firstVerdicts undefined cache (.object members) domain).count verdict +
    (systemVerdicts undefined cache.system ((named .system members).map Prod.snd)).count verdict

/-- The same entries counted again for each further member of the name. -/
def again (verdict : Verdict) : Nat :=
  ∑ domain ∈ Domain.arrays, ((named domain members).length - 1) *
    (firstVerdicts undefined cache (.object members) domain).count verdict

/-- The entries of the further members of each array name, which nothing looks at. -/
def passedOver : Nat :=
  ∑ domain ∈ Domain.arrays,
    ((named domain members).tail.map fun member => arrayOffers member.2).sum

end Tallies

variable (undefined) in
/-- What a member of an array name adds to a tally: the first member's verdicts. -/
private def arrayTally (cache : ConfigCache) (root : Json) (verdict : Verdict)
    (member : List UInt8 × Json) : Nat :=
  match memberRole member.1 with
  | .record .system => 0
  | .record domain => (firstVerdicts undefined cache root domain).count verdict
  | _ => 0

private theorem documentVerdicts_tally (cache : ConfigCache) (root : Json)
    (record : SystemConfig) (members : List (List UInt8 × Json)) (verdict : Verdict) :
    (documentVerdicts undefined cache root record members).count verdict =
      (members.map (arrayTally undefined cache root verdict)).sum +
      (systemVerdicts undefined record ((named .system members).map Prod.snd)).count verdict := by
  induction members generalizing record with
  | nil => rfl
  | cons member members ih =>
      rw [documentVerdicts, List.count_append, ih, memberVerdicts, List.map_cons, List.sum_cons,
        importedSystem, List.filter_cons, List.filter_nil, named_cons, arrayTally]
      cases role : memberRole member.1 with
      | format => simp
      | unknown => simp
      | record domain =>
          cases domain with
          | system =>
              simp [systemVerdicts, List.count_cons]
              omega
          | _ => simp [Nat.add_assoc]

theorem documentVerdicts_count (cache : ConfigCache) (members : List (List UInt8 × Json))
    (verdict : Verdict) :
    (documentVerdicts undefined cache (.object members) cache.system members).count verdict =
      once undefined cache members verdict + again undefined cache members verdict := by
  have byName := sum_by_name (arrayTally undefined cache (.object members) verdict) members
    fun member _ nameless => by
      rw [arrayTally]
      cases role : memberRole member.1 with
      | record domain => exact absurd role (nameless domain)
      | _ => rfl
  have system : ((named .system members).map
      (arrayTally undefined cache (.object members) verdict)).sum = 0 := by
    refine List.sum_eq_zero fun count there => ?_
    obtain ⟨member, chosen, rfl⟩ := List.mem_map.mp there
    rw [arrayTally, role_of_named chosen]
  have array : ∀ domain ∈ Domain.arrays, ((named domain members).map
      (arrayTally undefined cache (.object members) verdict)).sum =
        (firstVerdicts undefined cache (.object members) domain).count verdict +
          ((named domain members).length - 1) *
            (firstVerdicts undefined cache (.object members) domain).count verdict := by
    intro domain io
    have same : (named domain members).map
        (arrayTally undefined cache (.object members) verdict) =
          List.replicate (named domain members).length
            ((firstVerdicts undefined cache (.object members) domain).count verdict) := by
      rw [← List.map_const']
      refine List.map_congr_left fun member chosen => ?_
      rw [arrayTally, role_of_named chosen]
      split
      · cases ‹MemberRole.record domain = .record .system›
        exact absurd rfl (Domain.mem_arrays.mp io)
      · cases ‹MemberRole.record domain = .record _›
        rfl
      · rename_i other
        exact absurd rfl (other domain)
    rw [same, List.sum_replicate_nat]
    cases present : named domain members with
    | nil =>
        have nothing := @firstVerdicts_length undefined cache members domain
        rw [present] at nothing
        rw [List.eq_nil_of_length_eq_zero nothing]
        rfl
    | cons first others =>
        rw [List.length_cons, Nat.add_sub_cancel, Nat.succ_mul, Nat.add_comm]
  rw [documentVerdicts_tally, byName, system, Finset.sum_congr rfl array, Finset.sum_add_distrib,
    once, again]
  omega

theorem offered_eq (cache : ConfigCache) (members : List (List UInt8 × Json)) :
    offered members =
      once undefined cache members .accepted + once undefined cache members .rejected +
        once undefined cache members .malformed + passedOver members := by
  have byName := sum_by_name memberOffers members fun member _ nameless => by
    rw [memberOffers]
    cases role : memberRole member.1 with
    | record domain => exact absurd role (nameless domain)
    | _ => rfl
  have system : ((named .system members).map memberOffers).sum =
      (systemVerdicts undefined cache.system ((named .system members).map Prod.snd)).length := by
    have same : (named .system members).map memberOffers =
        List.replicate (named .system members).length 1 := by
      rw [← List.map_const']
      refine List.map_congr_left fun member chosen => ?_
      rw [memberOffers, role_of_named chosen]
    rw [same, List.sum_replicate_nat, Nat.mul_one, systemVerdicts_length,
      List.length_map]
  have array : ∀ domain ∈ Domain.arrays, ((named domain members).map memberOffers).sum =
      (firstVerdicts undefined cache (.object members) domain).length +
        ((named domain members).tail.map fun member => arrayOffers member.2).sum := by
    intro domain io
    have same : (named domain members).map memberOffers =
        (named domain members).map fun member => arrayOffers member.2 := by
      refine List.map_congr_left fun member chosen => ?_
      rw [memberOffers, role_of_named chosen]
      split
      · cases ‹MemberRole.record domain = .record .system›
        exact absurd rfl (Domain.mem_arrays.mp io)
      · rfl
      · rename_i other
        exact absurd rfl (other domain)
    rw [same, firstVerdicts_length]
    cases named domain members with
    | nil => rfl
    | cons first others => rfl
  rw [offered, byName, system, Finset.sum_congr rfl array, Finset.sum_add_distrib,
    length_eq_counts, Finset.sum_congr rfl fun domain _ => length_eq_counts _,
    Finset.sum_add_distrib, Finset.sum_add_distrib, once, once, once, passedOver]
  omega

/-! The report accounts for every entry. -/

section Report

variable (undefined) (cache : ConfigCache) (members : List (List UInt8 × Json))

/-- Every entry counted once, an accepted one exactly when it was stored, every unknown
name counted, and a first error exactly when something was not accepted. -/
structure ReportAccounts (report : ImportReport) : Prop where
  total : report.accepted.toNat + report.rejected.toNat + report.malformed.toNat =
    offered members
  accepted : report.accepted.toNat = once undefined cache members .accepted
  unknownKeys : report.unknownKeys.toNat = unknownMembers members
  firstError : report.firstError = "" ↔ report.rejected.toNat + report.malformed.toNat = 0

/-- What is counted again makes up for what is passed over, in counters of 16 bits. -/
structure RepeatsBalance : Prop where
  accepted : once undefined cache members .accepted < 2 ^ 16 ∧
    2 ^ 16 ∣ again undefined cache members .accepted
  refused :
    (once undefined cache members .rejected + again undefined cache members .rejected) % 2 ^ 16 +
        (once undefined cache members .malformed + again undefined cache members .malformed) %
          2 ^ 16 =
      once undefined cache members .rejected + once undefined cache members .malformed +
        passedOver members
  noticed :
    2 ^ 16 ∣ once undefined cache members .rejected + again undefined cache members .rejected →
    2 ^ 16 ∣ once undefined cache members .malformed + again undefined cache members .malformed →
      once undefined cache members .rejected + once undefined cache members .malformed = 0
  unknownKeys : unknownMembers members < 2 ^ 16

end Report

theorem again_eq_zero {cache : ConfigCache} {members : List (List UInt8 × Json)}
    {verdict : Verdict} (unmet : once undefined cache members verdict = 0) :
    again undefined cache members verdict = 0 := by
  rw [once, Nat.add_eq_zero_iff, Finset.sum_eq_zero_iff] at unmet
  refine Finset.sum_eq_zero fun domain io => ?_
  rw [unmet.1 domain io, Nat.mul_zero]

theorem configImportDocument_logs {m : Manager} (ready : m.initialised = true)
    (members : List (List UInt8 × Json)) :
    ImportReport.reset.Logs (configImportDocument undefined (.object members) m).2.report
      (documentVerdicts undefined m.cache (.object members) m.cache.system members)
      (unknownMembers members) :=
  @applyMembers_logs undefined m.cache (.object members) m.cache.system ⟨m, .reset⟩ members
    ⟨ready, fun _ _ => .inl fun _ => rfl, rfl⟩

variable (undefined) in
/-- The report of an import accounts for every entry exactly when what the repeated names
count again makes up for what they pass over. -/
theorem reportAccounts_iff {m : Manager} (ready : m.initialised = true)
    (members : List (List UInt8 × Json)) :
    ReportAccounts undefined m.cache members
        (configImportDocument undefined (.object members) m).2.report ↔
      RepeatsBalance undefined m.cache members := by
  have logged := @configImportDocument_logs undefined m ready members
  generalize (configImportDocument undefined (.object members) m).2.report = report at logged ⊢
  obtain ⟨accepted, rejected, malformed, unknownKeys, firstError⟩ := logged
  rw [documentVerdicts_count] at accepted rejected malformed
  rw [documentVerdicts_count, documentVerdicts_count] at firstError
  have wrapped : ∀ {counter : UInt16} {tally : Nat}, counter = 0 + UInt16.ofNat tally →
      counter.toNat = tally % 2 ^ 16 := by
    intro counter tally counted
    rw [counted, UInt16.zero_add, UInt16.toNat_ofNat']
  replace accepted := wrapped accepted
  replace rejected := wrapped rejected
  replace malformed := wrapped malformed
  replace unknownKeys := wrapped unknownKeys
  have offers := @offered_eq undefined m.cache members
  constructor
  · intro accounts
    obtain ⟨total, stored, unknown, first⟩ := accounts
    refine ⟨⟨?_, ?_⟩, ?_, ?_, ?_⟩
    · omega
    · omega
    · omega
    · intro rejectedFull malformedFull
      have silent := first.mpr (by omega)
      have clean := (firstError.mp silent).2
      omega
    · omega
  · intro balance
    obtain ⟨⟨fits, multiple⟩, refused, noticed, unknown⟩ := balance
    refine ⟨?_, ?_, ?_, ?_⟩
    · omega
    · omega
    · omega
    · rw [firstError]
      constructor
      · intro clean
        omega
      · intro silent
        have clean := noticed (by omega) (by omega)
        have rejectedOnce := @again_eq_zero undefined m.cache members .rejected (by omega)
        have malformedOnce := @again_eq_zero undefined m.cache members .malformed (by omega)
        exact ⟨rfl, by omega, by omega⟩

/-- A document that repeats no array name and overflows no counter is accounted for. -/
theorem repeatsBalance_iff_of_unrepeated {cache : ConfigCache}
    {members : List (List UInt8 × Json)}
    (unrepeated : ∀ domain, domain ≠ .system → (named domain members).length ≤ 1) :
    RepeatsBalance undefined cache members ↔
      (∀ verdict, once undefined cache members verdict < 2 ^ 16) ∧
        unknownMembers members < 2 ^ 16 := by
  have fresh : ∀ verdict, again undefined cache members verdict = 0 := by
    intro verdict
    refine Finset.sum_eq_zero fun domain io => ?_
    rw [Nat.sub_eq_zero_of_le (unrepeated domain (Domain.mem_arrays.mp io)), Nat.zero_mul]
  have seen : passedOver members = 0 := by
    refine Finset.sum_eq_zero fun domain io => ?_
    have alone := unrepeated domain (Domain.mem_arrays.mp io)
    cases present : named domain members with
    | nil => rfl
    | cons first others =>
        rw [present, List.length_cons] at alone
        rw [List.tail_cons, List.eq_nil_of_length_eq_zero (by omega : others.length = 0)]
        rfl
  constructor
  · intro balance
    obtain ⟨⟨fits, multiple⟩, refused, noticed, unknown⟩ := balance
    rw [fresh, fresh, seen] at refused
    refine ⟨fun verdict => ?_, unknown⟩
    cases verdict with
    | accepted => exact fits
    | rejected => omega
    | malformed => omega
  · intro small
    have rejected := small.1 .rejected
    have malformed := small.1 .malformed
    refine ⟨⟨small.1 .accepted, ?_⟩, ?_, ?_, small.2⟩
    · rw [fresh]
      exact Nat.dvd_zero _
    · rw [fresh, fresh, seen]
      omega
    · rw [fresh, fresh]
      omega

end Verdicts

/-- The name is repeated: channel 0 is counted twice, channels 1 and 2 are passed over. -/
def repeatedName : List (List UInt8 × Json) :=
  [(ascii "di", .array [.object [(ascii "channel", .number 0)]]),
    (ascii "di", .array [.object [(ascii "channel", .number 1)],
      .object [(ascii "channel", .number 2)]])]

theorem reportAccounts_fails_at_repeated :
    ¬ReportAccounts (fun _ => int32Min) Manager.atDefaults.cache repeatedName
      (configImportDocument (fun _ => int32Min) (.object repeatedName) .atDefaults).2.report := by
  intro accounts
  have total := accounts.total
  revert total
  decide +kernel

theorem reportAccounts_single :
    ReportAccounts (fun _ => int32Min) Manager.atDefaults.cache (repeatedName.drop 1)
      (configImportDocument (fun _ => int32Min) (.object (repeatedName.drop 1))
        .atDefaults).2.report := by
  refine (@reportAccounts_iff (fun _ => int32Min) .atDefaults rfl (repeatedName.drop 1)).mpr ?_
  refine ⟨⟨?_, ?_⟩, ?_, ?_, ?_⟩ <;> decide +kernel

end ConfigWp
