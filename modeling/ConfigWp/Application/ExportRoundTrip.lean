import ConfigWp.Application.ConfigExport
import ConfigWp.Application.ImportReport

/-! Export and import. A builder writes one member for each field that has a spelling,
and a patcher reads each of them back; the field that has none keeps what it held. -/

set_option autoImplicit false

namespace ConfigWp

/-! The builders field by field. -/

def buildRecord : (domain : Domain) → UInt8 → domain.Record → Json
  | .di => buildDi
  | .do_ => buildDo
  | .tc => buildTc
  | .ai => buildAi
  | .ao => buildAo
  | .pcnt => buildPcnt
  | .pwm => buildPwm
  | .system => fun _ => buildSystem

/-- The member a builder writes for a field, if it writes one. -/
def exportedMember : FieldKind → FieldValue → Option Json
  | .text, .text name => some (.string (cString name.bytes))
  | .flag, .flag value => some (.bool value)
  | .unsigned _, .number value => some (.number value)
  | .signed _, .number value => some (.number value)
  | .choice _ toStr, .number value =>
      (toStr (UInt32.ofNat value.toNat)).map fun text => .string (ascii text)
  | _, _ => none

def exportedMemberOf (domain : Domain) (record : domain.Record) (field : domain.Field) :
    Option Json :=
  exportedMember (fieldKind domain field) (fieldOf domain record field)

def exportedMembers (domain : Domain) (record : domain.Record) (fields : List domain.Field) :
    Members :=
  fields.flatMap fun field =>
    ((exportedMemberOf domain record field).map fun child =>
      (ascii (fieldKey domain field), child)).toList

def exportedChannel (domain : Domain) (channel : UInt8) : Members :=
  if domain = .system then [] else [(ascii "channel", .number channel.toNat)]

theorem buildRecord_eq (domain : Domain) (channel : UInt8) (record : domain.Record) :
    buildRecord domain channel record =
      .object (exportedChannel domain channel ++
        exportedMembers domain record domain.fields) := by
  cases domain <;>
    simp [buildRecord, buildDi, buildDo, buildTc, buildAi, buildAo, buildPcnt, buildPwm,
      buildSystem, addNumberToObject, addStringToObject, addBoolToObject, exportedChannel,
      exportedMembers, exportedMemberOf, exportedMember, Domain.fields, fieldKind, fieldKey,
      fieldShape, diShape, doShape, tcShape, aiShape, aoShape, pcntShape, pwmShape, systemShape,
      fieldOf, diField, doField, tcField, aiField, aoField, pcntField, pwmField, systemField,
      Option.map_map, Function.comp_def]

theorem find_exportedMembers (domain : Domain) (record : domain.Record) (field : domain.Field)
    (fields : List domain.Field) :
    ((exportedMembers domain record fields).find? fun member =>
        strEq member.1 (fieldKey domain field)).map Prod.snd =
      if field ∈ fields then exportedMemberOf domain record field else none := by
  induction fields with
  | nil => rfl
  | cons first rest ih =>
      rw [exportedMembers, List.flatMap_cons, List.find?_append, ← exportedMembers]
      by_cases same : first = field
      · subst same
        rw [if_pos List.mem_cons_self]
        cases member : exportedMemberOf domain record first with
        | none =>
            rw [member] at ih
            rw [Option.map_none, Option.toList_none, List.find?_nil, Option.none_or, ih, ite_self]
        | some child =>
            rw [Option.map_some, Option.toList_some, List.find?_cons_of_pos]
            · rfl
            · rw [strEq_fieldKey, decide_eq_true rfl]
      · have unnamed : strEq (ascii (fieldKey domain first)) (fieldKey domain field) = false := by
          rw [strEq_fieldKey, decide_eq_false same]
        have skipped : (((exportedMemberOf domain record first).map fun child =>
            (ascii (fieldKey domain first), child)).toList.find? fun member =>
              strEq member.1 (fieldKey domain field)) = none := by
          cases exportedMemberOf domain record first with
          | none => rfl
          | some child => simp [unnamed]
        rw [skipped, Option.none_or, ih]
        simp only [List.mem_cons, Ne.symm same, false_or]

/-- A reader finds the member of each field under its key. -/
theorem lookup_buildRecord (domain : Domain) (channel : UInt8) (record : domain.Record)
    (field : domain.Field) :
    cJsonGetObjectItemCaseSensitive (buildRecord domain channel record) (fieldKey domain field) =
      exportedMemberOf domain record field := by
  have apart : ((exportedChannel domain channel).find? fun member =>
      strEq member.1 (fieldKey domain field)) = none := by
    rw [exportedChannel]
    split_ifs
    · rfl
    · simp [strEq_channel_fieldKey]
  rw [buildRecord_eq, cJsonGetObjectItemCaseSensitive, List.find?_append, apart, Option.none_or,
    find_exportedMembers, if_pos (Domain.mem_fields field)]

theorem entryChannel_buildRecord {domain : Domain} (io : domain ≠ .system)
    (channel : Fin domain.count) (record : domain.Record) :
    entryChannel domain (buildRecord domain (UInt8.ofNat channel) record) = some channel := by
  have named : strEq (ascii "channel") "channel" = true := by decide
  have lookup : cJsonGetObjectItemCaseSensitive
      (buildRecord domain (UInt8.ofNat channel) record) "channel" =
        some (.number ((channel : Nat) : Rat)) := by
    rw [buildRecord_eq, cJsonGetObjectItemCaseSensitive, exportedChannel, if_neg io,
      channel_toNat channel]
    simp [named]
  have inside : (0 : Rat) ≤ ((channel : Nat) : Rat) ∧ ((channel : Nat) : Rat) < domain.count :=
    ⟨by exact_mod_cast Nat.zero_le _, by exact_mod_cast channel.isLt⟩
  rw [entryChannel, lookup]
  dsimp only
  rw [dif_pos inside]
  congr 1
  refine Fin.ext ?_
  have whole := truncate_intCast ((channel : Nat) : Int)
  rw [Int.cast_natCast] at whole
  exact congrArg Int.toNat whole

/-! Names as C strings. -/

theorem cString_cString (bytes : List UInt8) : cString (cString bytes) = cString bytes :=
  List.takeWhile_idem

theorem cString_length_lt {name : Name} (terminated : name.last = 0) :
    (cString name.bytes).length < configNameLen := by
  have size := name.size_eq
  have inside : configNameLen - 1 < name.bytes.length := by rw [size]; decide
  have short := (List.takeWhile_prefix (· ≠ (0 : UInt8)) (l := name.bytes)).length_le
  refine lt_of_le_of_ne (size ▸ short) fun full => ?_
  have whole := (List.takeWhile_prefix (· ≠ (0 : UInt8)) (l := name.bytes)).eq_of_length
    (full.trans size.symm)
  have nonzero := List.takeWhile_eq_self_iff.mp whole _ (List.getElem_mem inside)
  rw [Name.last, List.getD_eq_getElem _ _ inside] at terminated
  rw [terminated] at nonzero
  exact absurd nonzero (by decide)

theorem cString_ofBytes {chars : List UInt8} (short : chars.length < configNameLen)
    (string : cString chars = chars) : cString (Name.ofBytes chars).bytes = chars := by
  have padding : configNameLen - chars.length = configNameLen - chars.length - 1 + 1 := by omega
  have split : (Name.ofBytes chars).bytes =
      chars ++ 0 :: List.replicate (configNameLen - chars.length - 1) 0 := by
    change (chars ++ List.replicate configNameLen 0).take configNameLen = _
    rw [List.take_append, List.take_of_length_le short.le, List.take_replicate,
      Nat.min_eq_left (Nat.sub_le _ _), ← List.replicate_succ, ← padding]
  rw [split, cString, List.takeWhile_append_of_pos]
  · simp
  · exact List.takeWhile_eq_self_iff.mp string

theorem last_ofBytes {chars : List UInt8} (short : chars.length < configNameLen) :
    (Name.ofBytes chars).last = 0 := by
  have room : chars.length ≤ configNameLen - 1 := by omega
  have bytes : (Name.ofBytes chars).bytes[configNameLen - 1]? = some 0 := by
    rw [Name.ofBytes, List.getElem?_take_of_lt (by decide), List.getElem?_append_right room,
      List.getElem?_replicate_of_lt (by omega)]
  rw [Name.last, List.getD_eq_getElem?_getD, bytes, Option.getD_some]

/-- What a field holds after a write and a read: a name is padded with zeros. -/
def FieldValue.reread : FieldValue → FieldValue
  | .text name => .text (.ofBytes (cString name.bytes))
  | value => value

/-- Equal values, names compared as C strings. -/
def FieldValue.Same : FieldValue → FieldValue → Prop
  | .text left, .text right => cString left.bytes = cString right.bytes
  | left, right => left = right

theorem FieldValue.same_refl (value : FieldValue) : value.Same value := by
  cases value <;> exact rfl

theorem reread_same {domain : Domain} {field : domain.Field} {value : FieldValue}
    (legal : fieldLegal domain field value) : value.reread.Same value := by
  cases value with
  | text name => exact cString_ofBytes (cString_length_lt legal) (cString_cString name.bytes)
  | flag value => rfl
  | number value => rfl

theorem reread_legal {domain : Domain} {field : domain.Field} {value : FieldValue}
    (legal : fieldLegal domain field value) : fieldLegal domain field value.reread := by
  cases value with
  | text name => exact last_ofBytes (cString_length_lt legal)
  | flag value => exact legal
  | number value => exact legal

/-! Which values have a spelling. -/

/-- The codes of an enumeration that have no string. -/
def FieldKind.unspelt : FieldKind → List Nat
  | .choice count toStr =>
      (List.range count.toNat).filter fun code => (toStr (UInt32.ofNat code)).isNone
  | _ => []

/-- The strings of an enumeration are read as the codes they are written for. -/
def FieldKind.readsBack : FieldKind → Bool
  | .choice count toStr =>
      (List.range count.toNat).all fun code =>
        (toStr (UInt32.ofNat code)).all fun text =>
          ((List.range count.toNat).map UInt32.ofNat).find?
            (fun v => (toStr v).any (strEq (ascii text))) == some (UInt32.ofNat code)
  | _ => true

/-- Kelvin is the one legal value without a string. -/
def unspeltCodes : (domain : Domain) → domain.Field → List Nat
  | .tc, .unit => [TcUnit.kelvin.code.toNat]
  | _, _ => []

theorem fieldKind_unspelt (domain : Domain) (field : domain.Field) :
    (fieldKind domain field).unspelt = unspeltCodes domain field := by
  have kinds : ∀ domain ∈ Domain.all, ∀ field ∈ domain.fields,
      (fieldKind domain field).unspelt = unspeltCodes domain field := by decide +kernel
  exact kinds domain domain.mem_all field (Domain.mem_fields _)

theorem fieldKind_readsBack (domain : Domain) (field : domain.Field) :
    (fieldKind domain field).readsBack = true := by
  have kinds : ∀ domain ∈ Domain.all, ∀ field ∈ domain.fields,
      (fieldKind domain field).readsBack = true := by decide +kernel
  exact kinds domain domain.mem_all field (Domain.mem_fields _)

/-! What an import reads from an exported record. -/

section Read

variable (undefined : Rat → Int32)

private theorem readField_unsigned {bits : Nat} {value : Int}
    (holds : (FieldKind.unsigned bits).Holds (.number value)) :
    readField undefined (.unsigned bits) (.number value) = some (.number value) := by
  obtain ⟨low, high⟩ := holds
  have inside : ¬((value : Rat) < 0 ∨ (value : Rat) > ((2 ^ bits - 1 : Int) : Rat)) := by
    rw [not_or, not_lt, gt_iff_lt, not_lt]
    exact ⟨by exact_mod_cast low, by exact_mod_cast Int.le_sub_one_of_lt high⟩
  rw [readField, if_neg inside, truncate_intCast]

private theorem readField_signed {bits : Nat} {value : Int}
    (holds : (FieldKind.signed bits).Holds (.number value)) :
    readField undefined (.signed bits) (.number value) = some (.number value) := by
  obtain ⟨low, high⟩ := holds
  have inside : ¬((value : Rat) < ((-2 ^ (bits - 1) : Int) : Rat) ∨
      (value : Rat) > ((2 ^ (bits - 1) - 1 : Int) : Rat)) := by
    rw [not_or, not_lt, gt_iff_lt, not_lt]
    exact ⟨by exact_mod_cast low, by exact_mod_cast Int.le_sub_one_of_lt high⟩
  rw [readField, if_neg inside, truncate_intCast]

private theorem readField_choice {count : UInt32} {toStr : UInt32 → Option String} {value : Int}
    (reads : (FieldKind.choice count toStr).readsBack = true)
    (holds : (FieldKind.choice count toStr).Holds (.number value))
    (below : value < count.toNat) {text : String}
    (spelt : toStr (UInt32.ofNat value.toNat) = some text) :
    readField undefined (.choice count toStr) (.string (ascii text)) = some (.number value) := by
  obtain ⟨low, wide⟩ := holds
  rw [FieldKind.readsBack, List.all_eq_true] at reads
  have back := reads value.toNat (List.mem_range.mpr (by omega))
  rw [spelt, Option.all_some, beq_iff_eq] at back
  have kept : ((UInt32.ofNat value.toNat).toNat : Int) = value := by
    rw [UInt32.toNat_ofNat']
    omega
  rw [readField, enumFromJson, back, Option.map_some, kept]

theorem readField_exported {domain : Domain} {record : domain.Record} {field : domain.Field}
    (legal : fieldLegal domain field (fieldOf domain record field)) {child : Json}
    (exported : exportedMemberOf domain record field = some child) :
    readField undefined (fieldKind domain field) child =
        some (fieldOf domain record field).reread ∧ child ≠ .null := by
  have holds := holds_fieldOf domain record field
  have reads := fieldKind_readsBack domain field
  rw [exportedMemberOf] at exported
  rw [fieldLegal.eq_def] at legal
  generalize fieldOf domain record field = value at exported legal holds ⊢
  generalize fieldKind domain field = kind at exported legal holds reads ⊢
  cases kind with
  | text =>
      cases value with
      | text name =>
          obtain rfl := Option.some.inj exported
          have short := cString_length_lt legal
          rw [readField, cString_cString, if_neg (Nat.not_le.mpr short)]
          exact ⟨rfl, by simp⟩
      | _ => cases exported
  | flag =>
      cases value with
      | flag value =>
          obtain rfl := Option.some.inj exported
          exact ⟨rfl, by simp⟩
      | _ => cases exported
  | unsigned bits =>
      cases value with
      | number value =>
          obtain rfl := Option.some.inj exported
          exact ⟨readField_unsigned undefined holds, by simp⟩
      | _ => cases exported
  | signed bits =>
      cases value with
      | number value =>
          obtain rfl := Option.some.inj exported
          exact ⟨readField_signed undefined holds, by simp⟩
      | _ => cases exported
  | choice count toStr =>
      cases value with
      | number value =>
          obtain ⟨text, spelt, rfl⟩ := Option.map_eq_some_iff.mp exported
          exact ⟨readField_choice undefined reads holds legal.1 spelt, by simp⟩
      | _ => cases exported

end Read

/-- A legal field is left out of an export exactly when its code has no string. -/
theorem exportedMemberOf_eq_none_iff {domain : Domain} {record : domain.Record}
    {field : domain.Field} (legal : fieldLegal domain field (fieldOf domain record field)) :
    exportedMemberOf domain record field = none ↔
      ∃ code ∈ unspeltCodes domain field, fieldOf domain record field = .number code := by
  have holds := holds_fieldOf domain record field
  rw [exportedMemberOf, ← fieldKind_unspelt]
  rw [fieldLegal.eq_def] at legal
  generalize fieldOf domain record field = value at legal holds ⊢
  generalize fieldKind domain field = kind at legal holds ⊢
  cases kind with
  | choice count toStr =>
      cases value with
      | number value =>
          obtain ⟨low, wide⟩ := holds
          have below := legal.1
          rw [FieldKind.names_choice] at below
          rw [exportedMember, Option.map_eq_none_iff]
          constructor
          · intro unspelt
            refine ⟨value.toNat, List.mem_filter.mpr ⟨List.mem_range.mpr (by omega), ?_⟩, ?_⟩
            · rw [unspelt, Option.isNone_none]
            · rw [Int.toNat_of_nonneg low]
          · rintro ⟨code, listed, same⟩
            obtain rfl := FieldValue.number.inj same
            exact Option.isNone_iff_eq_none.mp (List.mem_filter.mp listed).2
      | _ => exact absurd holds id
  | _ => cases value <;> first | exact absurd holds id | simp [exportedMember, FieldKind.unspelt]

/-- The field of an imported export: the exported value, or the old one where the export
has no member. -/
def restoredField (domain : Domain) (record old : domain.Record) (field : domain.Field) :
    FieldValue :=
  if (exportedMemberOf domain record field).isNone then fieldOf domain old field
  else (fieldOf domain record field).reread

section Import

variable (undefined : Rat → Int32)

theorem patchedFieldOf_buildRecord {domain : Domain} {record : domain.Record}
    (valid : validate domain record = true) (channel : UInt8) (old : domain.Record)
    (field : domain.Field) :
    patchedFieldOf undefined domain (buildRecord domain channel record) old field =
      some (restoredField domain record old field) := by
  have legal := inRange_iff_fields.mp ((validate_iff domain record).mp valid) field
  rw [patchedFieldOf, patchedField, patchField, lookup_buildRecord, restoredField]
  cases exported : exportedMemberOf domain record field with
  | none => rfl
  | some child =>
      obtain ⟨read, present⟩ := readField_exported undefined legal exported
      cases child with
      | null => exact absurd rfl present
      | _ => exact read

/-- An exported record fits every valid record of its type. -/
theorem storedRecord_buildRecord {domain : Domain} {record old : domain.Record}
    (valid : validate domain record = true) (cached : validate domain old = true)
    (channel : UInt8) :
    ∃ new, storedRecord undefined domain (buildRecord domain channel record) old = some new ∧
      ∀ field, fieldOf domain new field = restoredField domain record old field := by
  have fields := patchedFieldOf_buildRecord undefined valid channel old
  obtain ⟨new, patched⟩ := Option.isSome_iff_exists.mp
    (patchRecord_isSome undefined fun field => by rw [fields field, Option.isSome_some])
  have restored : ∀ field, fieldOf domain new field = restoredField domain record old field := by
    intro field
    have shown := patchRecord_fields undefined patched field
    rw [fields field] at shown
    exact (Option.some.inj shown).symm
  refine ⟨new, (storedRecord_eq_some_iff undefined).mpr ⟨patched, ?_⟩, restored⟩
  rw [validate_iff, inRange_iff_fields] at valid cached ⊢
  intro field
  rw [restored field, restoredField]
  split_ifs
  · exact cached field
  · exact reread_legal (valid field)

/-! The arrays of an export. -/

def exportedEntry (domain : Domain) (m : Manager) (channel : Fin domain.count) : Json :=
  buildRecord domain (UInt8.ofNat channel) (m.cache.get ⟨domain, channel⟩)

def exportedEntries (domain : Domain) (m : Manager) : List Json :=
  (List.finRange domain.count).map (exportedEntry domain m)

theorem emitArray_eq {m : Manager} (ready : m.initialised = true) (domain : Domain) :
    emitArray domain (buildRecord domain) m = .array (exportedEntries domain m) := by
  rw [emitArray, exportedEntries, ← List.map_coe_finRange_eq_range, List.filterMap_map]
  congr 1
  rw [← List.filterMap_eq_map']
  refine List.filterMap_congr fun channel _ => ?_
  rw [Function.comp_apply, configGetRecord_channel ready channel]
  rfl

theorem entryChannel_exported {domain : Domain} (io : domain ≠ .system) (m : Manager)
    (channel : Fin domain.count) :
    entryChannel domain (exportedEntry domain m channel) = some channel :=
  entryChannel_buildRecord io channel _

theorem firstEntry_exported {domain : Domain} (io : domain ≠ .system) (m : Manager)
    {channels : List (Fin domain.count)} {channel : Fin domain.count}
    (listed : channel ∈ channels) :
    firstEntry domain (channels.map (exportedEntry domain m)) channel =
      some (exportedEntry domain m channel) := by
  induction channels with
  | nil => cases listed
  | cons first rest ih =>
      have addressed := entryChannel_exported io m first
      rw [firstEntry] at ih ⊢
      rw [List.map_cons]
      by_cases same : first = channel
      · subst same
        rw [List.find?_cons_of_pos (by rw [addressed, decide_eq_true rfl])]
      · rw [List.find?_cons_of_neg (by simp [addressed, same])]
        exact ih ((List.mem_cons.mp listed).resolve_left (Ne.symm same))

theorem firstEntry_unexported {domain : Domain} (io : domain ≠ .system) (m : Manager)
    {channels : List (Fin domain.count)} {channel : Fin domain.count}
    (absent : channel ∉ channels) :
    firstEntry domain (channels.map (exportedEntry domain m)) channel = none := by
  rw [firstEntry, List.find?_eq_none]
  intro entry member
  obtain ⟨other, listed, rfl⟩ := List.mem_map.mp member
  rw [entryChannel_exported io, decide_eq_true_eq, Option.some.injEq]
  rintro rfl
  exact absent listed

theorem entryVerdicts_exported {domain : Domain} (io : domain ≠ .system) {s s' : Manager}
    (valid : s.cache.Valid) (cached : s'.cache.Valid) (before channels : List (Fin domain.count))
    (distinct : (before ++ channels).Nodup) :
    ∀ verdict ∈ entryVerdicts undefined domain (fun channel => s'.cache.get ⟨domain, channel⟩)
      (before.map (exportedEntry domain s)) (channels.map (exportedEntry domain s)),
      verdict = .accepted := by
  induction channels generalizing before with
  | nil =>
      intro verdict listed
      cases listed
  | cons channel channels ih =>
      have fresh : channel ∉ before := by
        intro there
        rw [List.nodup_append] at distinct
        exact distinct.2.2 channel there channel List.mem_cons_self rfl
      have rest := ih (before ++ [channel])
      rw [List.append_assoc, List.singleton_append, List.map_append] at rest
      have unmet := firstEntry_unexported io s fresh
      have addressed := entryChannel_exported io s channel
      obtain ⟨new, stored, -⟩ := storedRecord_buildRecord undefined
        (valid ⟨domain, channel⟩) (cached ⟨domain, channel⟩) (UInt8.ofNat channel)
      have verdict : entryVerdict undefined domain
          (fun channel => s'.cache.get ⟨domain, channel⟩)
          (before.map (exportedEntry domain s)) (exportedEntry domain s channel) =
            some .accepted := by
        rw [exportedEntry, buildRecord_eq] at addressed ⊢
        rw [buildRecord_eq] at stored
        rw [entryVerdict, addressed]
        dsimp only
        rw [unmet, stored]
        rfl
      intro other listed
      rw [List.map_cons, entryVerdicts, verdict, Option.toList_some, List.singleton_append,
        List.mem_cons] at listed
      rcases listed with first | later
      · exact first
      · exact rest distinct other later

end Import

/-! The document. -/

def exportedArray (m : Manager) (domain : Domain) : List UInt8 × Json :=
  (ascii domain.memberName, .array (exportedEntries domain m))

def exportedDocument (m : Manager) : Members :=
  (ascii "format", .number 2) :: (ascii "system", buildSystem m.cache.system) ::
    [.di, .do_, .tc, .ai, .ao, .pcnt, .pwm].map (exportedArray m)

theorem configExportDocument_eq {m : Manager} (ready : m.initialised = true) :
    configExportDocument m = .object (exportedDocument m) := by
  have system : configGetSystem m = .ok m.cache.system := by
    rw [configGetSystem, if_neg (by simp [ready])]
  have arrays := emitArray_eq ready
  rw [configExportDocument, system, exportedDocument]
  simp only [List.map_cons, List.map_nil, exportedArray, ← arrays, List.cons_append,
    List.nil_append, buildRecord, Domain.memberName]

theorem memberRole_memberName (domain : Domain) :
    memberRole (ascii domain.memberName) = .record domain :=
  memberRole_eq_record_iff.mpr (by cases domain <;> decide)

theorem named_exportedDocument (m : Manager) (domain : Domain) :
    named domain (exportedDocument m) =
      if domain = .system then [(ascii "system", buildSystem m.cache.system)]
      else [exportedArray m domain] := by
  have format : memberRole (ascii "format") = .format := by decide
  have system := memberRole_memberName .system
  rw [Domain.memberName] at system
  cases domain <;>
    simp [exportedDocument, format, system, exportedArray, memberRole_memberName, named]

section RoundTrip

variable (undefined : Rat → Int32)

theorem arrayEntries_exported (m : Manager) {domain : Domain} (io : domain ≠ .system) :
    arrayEntries (.object (exportedDocument m)) domain.memberName = exportedEntries domain m := by
  rw [arrayEntries, lookup_eq_head, named_exportedDocument, if_neg io]
  rfl

theorem once_exported {s s' : Manager} (valid : s.cache.Valid) (cached : s'.cache.Valid)
    {verdict : Verdict} (faulty : verdict ≠ .accepted) :
    once undefined s'.cache (exportedDocument s) verdict = 0 := by
  rw [once, Nat.add_eq_zero_iff, Finset.sum_eq_zero_iff]
  constructor
  · intro domain io
    have array := Domain.mem_arrays.mp io
    rw [firstVerdicts, lookup_eq_head, named_exportedDocument, if_neg array]
    refine List.count_eq_zero.mpr fun listed => faulty ?_
    exact entryVerdicts_exported undefined array valid cached [] (List.finRange domain.count)
      (List.nodup_finRange _) verdict listed
  · obtain ⟨new, stored, -⟩ := storedRecord_buildRecord undefined
      (valid .system) (cached .system) 0
    have shape := buildRecord_eq .system 0 (s.cache.get .system)
    rw [shape] at stored
    rw [named_exportedDocument, if_pos rfl, List.map_singleton, systemVerdicts, systemVerdicts]
    refine List.count_eq_zero.mpr fun listed => faulty ?_
    have accepted : systemVerdict undefined s'.cache.system (buildSystem s.cache.system) =
        .accepted := by
      change systemVerdict undefined _ (buildRecord .system 0 (s.cache.get .system)) = _
      rw [shape, systemVerdict]
      exact if_pos (by rw [Option.isSome_iff_exists]; exact ⟨new, stored⟩)
    rw [accepted, List.mem_singleton] at listed
    exact listed

/-- Every field after the import of an export. -/
theorem field_exported {s s' : Manager} (valid : s.cache.Valid) (cached : s'.cache.Valid)
    (ready : s'.initialised = true) (place : FieldPlace) :
    (configImportDocument undefined (.object (exportedDocument s)) s').2.manager.cache.field
        place =
      restoredField place.key.domain (s.cache.get place.key) (s'.cache.get place.key)
        place.field := by
  obtain ⟨⟨domain, channel⟩, field⟩ := place
  obtain ⟨new, stored, restored⟩ := storedRecord_buildRecord undefined
    (valid ⟨domain, channel⟩) (cached ⟨domain, channel⟩) (UInt8.ofNat channel)
  rw [ConfigCache.field, ← restored field]
  congr 1
  by_cases io : domain = .system
  · subst io
    obtain rfl := Subsingleton.elim (⟨0, Nat.one_pos⟩ : Fin 1) channel
    refine (configImportDocument_system ready (exportedDocument s)).trans ?_
    have only := named_exportedDocument s .system
    rw [named, if_pos rfl] at only
    rw [importedSystem, only, List.foldl_cons, List.foldl_nil]
    exact congrArg (Option.getD · _) stored
  · rw [configImportDocument_array ready _ io channel, arrayEntries_exported s io, importedRecord,
      exportedEntries, firstEntry_exported io s (List.mem_finRange channel)]
    exact congrArg (Option.getD · _) stored

theorem restoredField_same_iff {domain : Domain} {record old : domain.Record}
    {field : domain.Field} (legal : fieldLegal domain field (fieldOf domain record field)) :
    (restoredField domain record old field).Same (fieldOf domain record field) ↔
      ∀ code ∈ unspeltCodes domain field, fieldOf domain record field = .number code →
        fieldOf domain old field = .number code := by
  have missing := exportedMemberOf_eq_none_iff legal
  rw [restoredField]
  cases exported : exportedMemberOf domain record field with
  | none =>
      obtain ⟨code, listed, value⟩ := missing.mp exported
      rw [Option.isNone_none, if_pos rfl, value]
      constructor
      · intro same other _ coded
        rw [← coded]
        cases held : fieldOf domain old field <;> rw [held] at same <;> exact same
      · intro agrees
        rw [agrees code listed rfl]
        exact FieldValue.same_refl _
  | some child =>
      rw [Option.isNone_some, if_neg Bool.false_ne_true]
      refine ⟨fun _ code listed value => ?_, fun _ => reread_same legal⟩
      rw [missing.mpr ⟨code, listed, value⟩] at exported
      cases exported

/-- The export succeeds, the import of its text reports no fault, and every field ends
up with its exported value, names compared as C strings. -/
def RoundTrips (print : Json → Option (List UInt8)) (parse : List UInt8 → Option Json)
    (buf : Option Nat) (s s' : Manager) : Prop :=
  ∃ text, configExportJson print buf s = .ok text ∧
    (configImportJson undefined parse (some text) s').1 = .ok () ∧
    (configImportJson undefined parse (some text) s').2.report.rejected = 0 ∧
    (configImportJson undefined parse (some text) s').2.report.malformed = 0 ∧
    ∀ place, ((configImportJson undefined parse (some text) s').2.manager.cache.field place).Same
      (s.cache.field place)

/-- Every thermocouple set to kelvin in the one configuration is in the other. -/
def KelvinAgrees (s s' : ConfigCache) : Prop :=
  ∀ channel : Fin Domain.tc.count, tcField (s.get ⟨.tc, channel⟩) .unit =
      .number TcUnit.kelvin.code.toNat →
    tcField (s'.get ⟨.tc, channel⟩) .unit = .number TcUnit.kelvin.code.toNat

theorem restored_iff_kelvinAgrees {s s' : ConfigCache} (valid : s.Valid) :
    (∀ place : FieldPlace, (restoredField place.key.domain (s.get place.key) (s'.get place.key)
        place.field).Same (s.field place)) ↔ KelvinAgrees s s' := by
  have legal : ∀ place : FieldPlace, fieldLegal place.key.domain place.field (s.field place) :=
    fun place => inRange_iff_fields.mp ((validate_iff _ _).mp (valid place.key)) place.field
  constructor
  · intro restored channel kelvin
    exact (restoredField_same_iff (legal ⟨⟨.tc, channel⟩, .unit⟩)).mp
      (restored ⟨⟨.tc, channel⟩, .unit⟩) _ List.mem_cons_self kelvin
  · intro agrees place
    refine (restoredField_same_iff (legal place)).mpr ?_
    obtain ⟨⟨domain, channel⟩, field⟩ := place
    intro code listed value
    cases domain with
    | tc =>
        cases field with
        | unit =>
            obtain rfl := List.mem_singleton.mp listed
            exact agrees channel value
        | _ => cases listed
    | _ => cases listed

section Transport

variable {print : Json → Option (List UInt8)} {parse : List UInt8 → Option Json}
  {s s' : Manager} {printed : List UInt8} {cap : Nat}

theorem configExportJson_printed (prints : print (configExportDocument s) = some printed)
    (room : (cString printed).length + 1 ≤ cap) :
    configExportJson print (some cap) s = .ok (cString printed) := by
  rw [configExportJson, prints]
  dsimp only
  rw [if_neg (by omega), if_neg (by omega)]

theorem configImportJson_exported (ready : s.initialised = true)
    (reparses : parse (cString printed) = some (configExportDocument s)) :
    configImportJson undefined parse (some (cString printed)) s' =
      configImportDocument undefined (.object (exportedDocument s)) s' := by
  rw [configImportJson, reparses, configExportDocument_eq ready]

theorem kelvinAgrees_of_roundTrips (ready : s.initialised = true)
    (ready' : s'.initialised = true) (valid : s.cache.Valid) (valid' : s'.cache.Valid)
    (prints : print (configExportDocument s) = some printed)
    (reparses : parse (cString printed) = some (configExportDocument s))
    (room : (cString printed).length + 1 ≤ cap)
    (restores : RoundTrips undefined print parse (some cap) s s') :
    KelvinAgrees s.cache s'.cache := by
  obtain ⟨text, written, -, -, -, fields⟩ := restores
  obtain rfl := Except.ok.inj ((configExportJson_printed prints room).symm.trans written)
  refine (restored_iff_kelvinAgrees valid).mp fun place => ?_
  rw [← field_exported undefined valid valid' ready',
    ← configImportJson_exported undefined ready reparses]
  exact fields place

theorem roundTrips_of_kelvinAgrees (ready : s.initialised = true)
    (ready' : s'.initialised = true) (valid : s.cache.Valid) (valid' : s'.cache.Valid)
    (prints : print (configExportDocument s) = some printed)
    (reparses : parse (cString printed) = some (configExportDocument s))
    (room : (cString printed).length + 1 ≤ cap) (agrees : KelvinAgrees s.cache s'.cache) :
    RoundTrips undefined print parse (some cap) s s' := by
  have logged := @configImportDocument_logs undefined s' ready' (exportedDocument s)
  have clean : ∀ verdict, verdict ≠ .accepted → (documentVerdicts undefined s'.cache
      (.object (exportedDocument s)) s'.cache.system (exportedDocument s)).count verdict = 0 := by
    intro verdict faulty
    have unmet := once_exported undefined valid valid' faulty
    rw [documentVerdicts_count, unmet, again_eq_zero unmet]
  refine ⟨cString printed, configExportJson_printed prints room, ?_⟩
  rw [configImportJson_exported undefined ready reparses]
  refine ⟨rfl, ?_, ?_, fun place => ?_⟩
  · rw [logged.rejected, clean .rejected (by decide)]
    rfl
  · rw [logged.malformed, clean .malformed (by decide)]
    rfl
  · rw [field_exported undefined valid valid' ready']
    exact (restored_iff_kelvinAgrees valid).mpr agrees place

/-- An export imported into another configuration restores it exactly when every
thermocouple that it sets to kelvin is already set to kelvin there. -/
theorem roundTrips_iff (ready : s.initialised = true) (ready' : s'.initialised = true)
    (valid : s.cache.Valid) (valid' : s'.cache.Valid)
    (prints : print (configExportDocument s) = some printed)
    (reparses : parse (cString printed) = some (configExportDocument s))
    (room : (cString printed).length + 1 ≤ cap) :
    RoundTrips undefined print parse (some cap) s s' ↔ KelvinAgrees s.cache s'.cache :=
  ⟨kelvinAgrees_of_roundTrips undefined ready ready' valid valid' prints reparses room,
    roundTrips_of_kelvinAgrees undefined ready ready' valid valid' prints reparses room⟩

end Transport

end RoundTrip

/-! The text of an export, as the JSON library formats it: tabs for the depth, a tab
after a colon, a space after the comma of an array. The numbers of an export are integers. -/

def escapeChar (char : UInt8) : List UInt8 :=
  if char = 0x22 ∨ char = 0x5C then [0x5C, char]
  else if char = 0x08 then ascii "\\b"
  else if char = 0x0C then ascii "\\f"
  else if char = 0x0A then ascii "\\n"
  else if char = 0x0D then ascii "\\r"
  else if char = 0x09 then ascii "\\t"
  else if char < 0x20 then
    ascii "\\u00" ++ [0x30 + char / 16, UInt8.ofNat (Nat.digitChar (char % 16).toNat).toNat]
  else [char]

def printString (chars : List UInt8) : List UInt8 := [0x22] ++ chars.flatMap escapeChar ++ [0x22]

mutual

def printValue (depth : Nat) : Json → List UInt8
  | .null => ascii "null"
  | .bool value => ascii (if value then "true" else "false")
  | .number value => ascii (toString value.num)
  | .string chars => printString chars
  | .array items => ascii "[" ++ printItems (depth + 1) items ++ ascii "]"
  | .object members =>
      [0x7B, 0x0A] ++ printMembers (depth + 1) members ++ List.replicate depth 0x09 ++ [0x7D]

def printItems (depth : Nat) : List Json → List UInt8
  | [] => []
  | item :: items =>
      printValue depth item ++ (if items.isEmpty then [] else [0x2C, 0x20]) ++
        printItems depth items

def printMembers (depth : Nat) : List (List UInt8 × Json) → List UInt8
  | [] => []
  | (name, child) :: members =>
      List.replicate depth 0x09 ++ printString name ++ [0x3A, 0x09] ++ printValue depth child ++
        (if members.isEmpty then [] else [0x2C]) ++ [0x0A] ++ printMembers depth members

end

def cJsonPrint (root : Json) : Option (List UInt8) := some (printValue 0 root)

/-- A parser that knows the text of one export. -/
def parseExport (m : Manager) (text : List UInt8) : Option Json :=
  if text = cString (printValue 0 (configExportDocument m)) then some (configExportDocument m)
  else none

/-- The room that the text of an export needs. -/
def exportRoom (m : Manager) : Nat := (cString (printValue 0 (configExportDocument m))).length + 1

theorem cJsonPrint_export (m : Manager) :
    cJsonPrint (configExportDocument m) = some (printValue 0 (configExportDocument m)) := rfl

theorem parseExport_printed (m : Manager) :
    parseExport m (cString (printValue 0 (configExportDocument m))) =
      some (configExportDocument m) := if_pos rfl

theorem exportRoom_le (m : Manager) :
    (cString (printValue 0 (configExportDocument m))).length + 1 ≤ exportRoom m := le_rfl

/-- One thermocouple set to kelvin. -/
def kelvinManager : Manager :=
  .store .atDefaults ⟨.tc, ⟨0, by decide⟩⟩ { tcDefault with unit := TcUnit.kelvin.code }

theorem kelvinManager_valid : kelvinManager.cache.Valid :=
  ConfigCache.valid_defaults.set (by decide)

theorem roundTrips_loses_kelvin :
    kelvinManager.initialised = true ∧ Manager.atDefaults.initialised = true ∧
      kelvinManager.cache.Valid ∧ Manager.atDefaults.cache.Valid ∧
      parseExport kelvinManager (cString (printValue 0 (configExportDocument kelvinManager))) =
        some (configExportDocument kelvinManager) ∧
      ¬RoundTrips (fun _ => int32Min) cJsonPrint (parseExport kelvinManager)
        (some (exportRoom kelvinManager)) kelvinManager .atDefaults := by
  refine ⟨rfl, rfl, kelvinManager_valid, ConfigCache.valid_defaults,
    parseExport_printed kelvinManager, fun restores => ?_⟩
  have agrees := kelvinAgrees_of_roundTrips _ rfl rfl kelvinManager_valid
    ConfigCache.valid_defaults (cJsonPrint_export kelvinManager)
    (parseExport_printed kelvinManager) (exportRoom_le kelvinManager) restores
  exact absurd (agrees ⟨0, by decide⟩ (by decide +kernel)) (by decide +kernel)

theorem roundTrips_without_kelvin :
    RoundTrips (fun _ => int32Min) cJsonPrint (parseExport .atDefaults)
      (some (exportRoom .atDefaults)) .atDefaults kelvinManager := by
  refine (roundTrips_iff _ rfl rfl ConfigCache.valid_defaults kelvinManager_valid
    (cJsonPrint_export .atDefaults) (parseExport_printed .atDefaults)
    (exportRoom_le .atDefaults)).mpr ?_
  intro channel kelvin
  revert channel
  decide +kernel

end ConfigWp
