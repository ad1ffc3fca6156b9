import ConfigWp.Application.ImportEntries

/-! Numbers of an entry. Each conversion casts a double to an integer, so a number
with a fraction passes for the integer it is cut to: the theorem says for which
numbers, at which positions, an entry is taken exactly or refused. -/

set_option autoImplicit false

namespace ConfigWp

/-- A place of an entry where a number can stand: its channel, or one of its fields. -/
inductive NumberPosition (domain : Domain) where
  | channel (io : domain ≠ .system)
  | field (field : domain.Field)

namespace NumberPosition

variable {domain : Domain}

def key : NumberPosition domain → String
  | .channel _ => "channel"
  | .field f => fieldKey domain f

def Range : NumberPosition domain → Int → Prop
  | .channel _, n => 0 ≤ n ∧ n < domain.count
  | .field f, n =>
      (fieldKind domain f).Holds (.number n) ∧ (fieldKind domain f).Names n

/-- The integer the code takes a number for: the one it converts it to, when neither
the range check nor the validator refuses it. -/
def Takes (undefined : Rat → Int32) : NumberPosition domain → Rat → Int → Prop
  | .channel _, x, n => (0 ≤ x ∧ x < (domain.count : Rat)) ∧ n = truncate x
  | .field f, x, n =>
      readField undefined (fieldKind domain f) (.number x) = some (.number n) ∧
        fieldLegal domain f (.number n)

/-- The number is the integer it is converted to, or it is refused: by the range check,
which for an enumeration comes after the conversion, or by the validator. -/
def Faithful (undefined : Rat → Int32) : NumberPosition domain → Rat → Prop
  | .channel _, x => x = truncate x ∨ x < 0 ∨ (domain.count : Rat) ≤ x
  | .field f, x =>
      match fieldKind domain f with
      | .unsigned bits =>
          x = truncate x ∨ x < 0 ∨ ((2 ^ bits - 1 : Int) : Rat) < x ∨
            ¬numberCheck domain f (truncate x)
      | .signed bits =>
          x = truncate x ∨ x < ((-2 ^ (bits - 1) : Int) : Rat) ∨
            ((2 ^ (bits - 1) - 1 : Int) : Rat) < x ∨ ¬numberCheck domain f (truncate x)
      | .choice count _ =>
          x = (toInt undefined x).toInt ∨ (toInt undefined x).toInt < 0 ∨
            (count.toNat : Int) ≤ (toInt undefined x).toInt
      | _ => True

end NumberPosition

theorem choice_count_le {domain : Domain} {field : domain.Field} {count : UInt32}
    {toStr : UInt32 → Option String} (kind : fieldKind domain field = .choice count toStr) :
    count ≤ 8 := by
  cases domain <;> cases field <;> cases kind <;> decide

section Numbers

variable (undefined : Rat → Int32)

theorem toInt_intCast {n : Int} (low : 0 ≤ n) (high : n ≤ 8) :
    (toInt undefined (n : Rat)).toInt = n := by
  rw [toInt, truncate_intCast, if_pos (by omega), Int32.toInt_ofInt_of_le (by omega) (by omega)]

/-- A number that is an integer of the range is taken for itself or not at all. -/
theorem NumberPosition.takes_intCast {domain : Domain} {position : NumberPosition domain}
    {n taken : Int} (inside : position.Range n) (takes : position.Takes undefined n taken) :
    taken = n := by
  cases position with
  | channel io => rw [takes.2, truncate_intCast]
  | field field =>
      obtain ⟨held, named⟩ := inside
      obtain ⟨read, -⟩ := takes
      cases kind : fieldKind domain field with
      | text => simp [kind, readField] at read
      | flag => simp [kind, readField] at read
      | unsigned bits =>
          simp only [kind, readField, truncate_intCast] at read
          split_ifs at read
          cases read
          rfl
      | signed bits =>
          simp only [kind, readField, truncate_intCast] at read
          split_ifs at read
          cases read
          rfl
      | choice count toStr =>
          have few := UInt32.le_iff_toNat_le.mp (choice_count_le kind)
          rw [kind] at held named
          rw [FieldKind.names_choice] at named
          have high : n ≤ 8 := le_trans named.le (by exact_mod_cast few)
          simp only [kind, readField, enumFromJson, toInt_intCast undefined held.1 high] at read
          rw [if_neg (not_or.mpr ⟨not_lt.mpr held.1, not_le.mpr named⟩)] at read
          have shown := FieldValue.number.inj (Option.some.inj read)
          have low : 0 ≤ n := held.1
          rw [← shown, UInt32.ofInt, UInt32.toNat_ofNat']
          omega

theorem numberCheck_choice {domain : Domain} {field : domain.Field} {count : UInt32}
    {toStr : UInt32 → Option String} (kind : fieldKind domain field = .choice count toStr)
    (n : Int) : numberCheck domain field n := by
  cases domain <;> cases field <;> first | exact trivial | cases kind

private theorem faithful_between {low high x : Rat} {legal : Int → Prop} :
    (x = truncate x ∨ x < low ∨ high < x ∨ ¬legal (truncate x)) ↔
      ∀ n, (if x < low ∨ x > high then none else some (FieldValue.number (truncate x))) =
        some (.number n) ∧ legal n → x = (n : Int) := by
  constructor
  · rintro faithful n ⟨read, checked⟩
    split_ifs at read with outside
    cases read
    rw [not_or, not_lt, not_lt] at outside
    rcases faithful with whole | below | above | unchecked
    · exact whole
    · exact absurd below (not_lt.mpr outside.1)
    · exact absurd above (not_lt.mpr outside.2)
    · exact absurd checked unchecked
  · intro all
    by_cases outside : x < low ∨ x > high
    · exact .inr (outside.imp id .inl)
    · by_cases checked : legal (truncate x)
      · exact .inl (all _ ⟨if_neg outside, checked⟩)
      · exact .inr (.inr (.inr checked))

theorem NumberPosition.faithful_iff {domain : Domain} {position : NumberPosition domain} {x : Rat} :
    position.Faithful undefined x ↔ ∀ n, position.Takes undefined x n → x = (n : Int) := by
  cases position with
  | channel io =>
      constructor
      · rintro faithful n ⟨⟨low, high⟩, rfl⟩
        rcases faithful with whole | below | above
        · exact whole
        · exact absurd below (not_lt.mpr low)
        · exact absurd above (not_le.mpr high)
      · intro all
        by_cases inside : 0 ≤ x ∧ x < (domain.count : Rat)
        · exact .inl (all _ ⟨inside, rfl⟩)
        · rw [not_and_or, not_le, not_lt] at inside
          exact .inr inside
  | field f =>
      simp only [NumberPosition.Faithful, NumberPosition.Takes, fieldLegal]
      cases kind : fieldKind domain f with
      | text => simp [readField]
      | flag => simp [readField]
      | unsigned bits =>
          simp only [readField, FieldKind.names_unsigned, true_and]
          exact_mod_cast faithful_between
      | signed bits =>
          simp only [readField, FieldKind.names_signed, true_and]
          exact faithful_between
      | choice count toStr =>
          have checked := numberCheck_choice kind
          have small := count.toNat_lt
          simp only [readField, enumFromJson, FieldKind.names_choice, checked, and_true]
          constructor
          · rintro faithful n ⟨read, named⟩
            split_ifs at read with outside
            · cases read
            · have shown := FieldValue.number.inj (Option.some.inj read)
              rw [UInt32.ofInt, UInt32.toNat_ofNat'] at shown
              rcases faithful with whole | below | above
              · rw [whole]
                congr 1
                omega
              · exact absurd (.inl below) outside
              · exact absurd (.inr above) outside
          · intro all
            by_cases outside : (toInt undefined x).toInt < 0 ∨
                (count.toNat : Int) ≤ (toInt undefined x).toInt
            · exact .inr outside
            · refine .inl (all _ ⟨?_, by omega⟩)
              rw [if_neg outside, Option.map_some, UInt32.ofInt, UInt32.toNat_ofNat']
              congr 2
              omega

/-! Entries that offer a number. -/

/-- One entry of the member for a type: of its array, or the system member itself. -/
def importEntry (domain : Domain) (arrName : String) (i : Nat) (item : Json) (seen : UInt32)
    (state : Import) : Import :=
  match domain with
  | .system => importSystem undefined item state
  | _ => (applyEntry undefined domain arrName i item seen state).2

theorem importEntry_cases {domain : Domain} {item : Json} {key : String} {value : Json}
    (offered : cJsonGetObjectItemCaseSensitive item key = some value) (arrName : String) (i : Nat)
    (seen : UInt32) {state : Import} (ready : state.manager.initialised = true) :
    ((∃ text, importEntry undefined domain arrName i item seen state = state.reject text) ∧
      ∀ channel, (domain ≠ .system →
          entryChannel domain item = some channel ∧ maskHas seen channel = false) →
        storedRecord undefined domain item (state.manager.cache.get ⟨domain, channel⟩) = none) ∨
    ∃ channel record,
      importEntry undefined domain arrName i item seen state =
        state.accept (state.manager.store ⟨domain, channel⟩ record) ∧
      storedRecord undefined domain item (state.manager.cache.get ⟨domain, channel⟩) =
        some record ∧
      (domain ≠ .system → entryChannel domain item = some channel) := by
  have object : ∃ members, item = .object members := by
    cases item with
    | object members => exact ⟨members, rfl⟩
    | _ => cases offered
  by_cases system : domain = .system
  · subst system
    have effect := importSystem_effect undefined item ready
    rw [importEntry]
    generalize importSystem undefined item state = next at effect ⊢
    cases effect with
    | malformed text worded shape => exact absurd object shape
    | refused text worded shape unfit =>
        refine .inl ⟨⟨text, rfl⟩, fun channel _ => ?_⟩
        rw [show channel = ⟨0, Nat.one_pos⟩ from Subsingleton.elim (α := Fin 1) _ _]
        exact unfit
    | applied record shape stored =>
        exact .inr ⟨⟨0, Nat.one_pos⟩, record, rfl, stored, fun io => absurd rfl io⟩
  · have effect := applyEntry_effect undefined domain arrName i item seen ready
    have entry : importEntry undefined domain arrName i item seen state =
        (applyEntry undefined domain arrName i item seen state).2 := by
      cases domain <;> first | rfl | exact absurd rfl system
    rw [entry]
    generalize applyEntry undefined domain arrName i item seen state = next at effect ⊢
    obtain ⟨members, rfl⟩ := object
    cases effect with
    | skipped null => cases null
    | malformed text worded shape present => exact absurd ⟨members, rfl⟩ shape
    | unaddressed text worded shape nowhere =>
        refine .inl ⟨⟨text, rfl⟩, fun channel place => ?_⟩
        have addressed := (place system).1
        rw [nowhere] at addressed
        cases addressed
    | duplicate text worded channel addressed met =>
        refine .inl ⟨⟨text, rfl⟩, fun other place => ?_⟩
        obtain ⟨there, fresh⟩ := place system
        rw [addressed] at there
        cases there
        rw [met] at fresh
        cases fresh
    | refused text worded channel addressed fresh unfit =>
        refine .inl ⟨⟨text, rfl⟩, fun other place => ?_⟩
        have there := (place system).1
        rw [addressed] at there
        cases there
        exact unfit
    | applied channel record addressed fresh stored =>
        exact .inr ⟨channel, record, rfl, stored, fun _ => addressed⟩

/-- An entry that offers a number is rejected and changes nothing, or it is accepted, the
number is an integer of the range of its position, and that integer is the channel of
the record that was stored or the value of the field. -/
def EntryExact {domain : Domain} (position : NumberPosition domain) (x : Rat)
    (state next : Import) : Prop :=
  (next.report.accepted = state.report.accepted ∧
      next.report.rejected = state.report.rejected + 1 ∧ next.manager = state.manager) ∨
    (next.report.accepted = state.report.accepted + 1 ∧
      ∃ channel record n, next.manager = state.manager.store ⟨domain, channel⟩ record ∧
        x = (n : Int) ∧ position.Range n ∧
        match position with
        | .channel _ => (channel : Int) = n
        | .field f => fieldOf domain record f = .number n)

/-- Every entry that offers the number at the position, to any ready and valid manager. -/
def NumberExact {domain : Domain} (position : NumberPosition domain) (x : Rat) : Prop :=
  ∀ (item : Json) (arrName : String) (i : Nat) (seen : UInt32) (state : Import),
    state.manager.initialised = true → state.manager.cache.Valid →
    cJsonGetObjectItemCaseSensitive item position.key = some (.number x) →
    EntryExact position x state (importEntry undefined domain arrName i item seen state)

theorem readField_number {kind : FieldKind} {x : Rat} {value : FieldValue}
    (read : readField undefined kind (.number x) = some value) : ∃ n, value = .number n := by
  cases kind with
  | text => cases read
  | flag => cases read
  | unsigned bits =>
      simp only [readField] at read
      split_ifs at read
      exact ⟨_, (Option.some.inj read).symm⟩
  | signed bits =>
      simp only [readField] at read
      split_ifs at read
      exact ⟨_, (Option.some.inj read).symm⟩
  | choice count toStr =>
      obtain ⟨code, -, same⟩ := Option.map_eq_some_iff.mp read
      exact ⟨_, same.symm⟩

theorem reject_report (state : Import) (text : String) :
    (state.reject text).report.accepted = state.report.accepted ∧
      (state.reject text).report.rejected = state.report.rejected + 1 ∧
      (state.reject text).manager = state.manager := by
  rw [Import.reject, ImportReport.noteFirstError]
  split_ifs <;> exact ⟨rfl, rfl, rfl⟩

theorem numberExact_of_takes {domain : Domain} {position : NumberPosition domain} {x : Rat}
    (faithful : ∀ n, position.Takes undefined x n → x = n) : NumberExact undefined position x := by
  intro item arrName i seen state ready valid offered
  rcases importEntry_cases undefined offered arrName i seen ready with
    ⟨⟨text, outcome⟩, -⟩ | ⟨channel, record, outcome, stored, addressed⟩
  · rw [outcome]
    exact .inl (reject_report state text)
  · rw [outcome]
    obtain ⟨patched, accepted⟩ := (storedRecord_eq_some_iff undefined).mp stored
    refine .inr ⟨rfl, channel, record, ?_⟩
    cases position with
    | channel io =>
        have named := addressed io
        rw [entryChannel, show cJsonGetObjectItemCaseSensitive item "channel" = _ from offered]
          at named
        dsimp only at named
        split_ifs at named with inside
        obtain rfl := Option.some.inj named
        have low := @le_truncate x 0 (by exact_mod_cast inside.1)
        refine ⟨truncate x, rfl, faithful _ ⟨inside, rfl⟩, ⟨low, ?_⟩, Int.toNat_of_nonneg low⟩
        have below := truncate_toNat_lt inside.1 inside.2
        omega
    | field f =>
        have shown := patchRecord_fields undefined patched f
        have legal := inRange_iff_fields.mp ((validate_iff _ _).mp accepted) f
        have held := holds_fieldOf domain record f
        rw [patchedFieldOf, patchedField, patchField,
          show cJsonGetObjectItemCaseSensitive item (fieldKey domain f) = _ from offered] at shown
        dsimp only at shown
        obtain ⟨n, value⟩ := readField_number undefined shown
        rw [value] at shown legal held
        exact ⟨n, rfl, faithful n ⟨shown, legal⟩, ⟨held, legal.1⟩, value⟩

/-! An entry that is taken: nothing but the number, offered to the defaults. -/

def loneEntry {domain : Domain} (x : Rat) : NumberPosition domain → Json
  | .channel _ => .object [(ascii "channel", .number x)]
  | .field f => .object [(ascii "channel", .number 0), (ascii (fieldKey domain f), .number x)]

theorem lookup_loneEntry {domain : Domain} (x : Rat) (position : NumberPosition domain) :
    cJsonGetObjectItemCaseSensitive (loneEntry x position) position.key = some (.number x) := by
  have channel : strEq (ascii "channel") "channel" = true := by decide
  cases position with
  | channel io => simp [loneEntry, cJsonGetObjectItemCaseSensitive, NumberPosition.key, channel]
  | field f =>
      simp [loneEntry, cJsonGetObjectItemCaseSensitive, NumberPosition.key, strEq_fieldKey,
        strEq_channel_fieldKey]

def loneField {domain : Domain} (n : Int) (record : domain.Record) (other : domain.Field) :
    NumberPosition domain → FieldValue
  | .channel _ => fieldOf domain record other
  | .field f => if other = f then .number n else fieldOf domain record other

theorem patchedFieldOf_loneEntry {domain : Domain} {position : NumberPosition domain} {x : Rat}
    {n : Int} (takes : position.Takes undefined x n) (record : domain.Record)
    (other : domain.Field) :
    patchedFieldOf undefined domain (loneEntry x position) record other =
      some (loneField n record other position) := by
  cases position with
  | channel io =>
      simp [loneField, patchedFieldOf, patchedField, patchField, loneEntry,
        cJsonGetObjectItemCaseSensitive, strEq_channel_fieldKey]
  | field f =>
      by_cases same : other = f
      · subst same
        simp [loneField, patchedFieldOf, patchedField, patchField, loneEntry,
          cJsonGetObjectItemCaseSensitive, strEq_channel_fieldKey, strEq_fieldKey, takes.1]
      · simp [loneField, patchedFieldOf, patchedField, patchField, loneEntry, same, Ne.symm same,
          cJsonGetObjectItemCaseSensitive, strEq_channel_fieldKey, strEq_fieldKey]

theorem storedRecord_loneEntry {domain : Domain} {position : NumberPosition domain} {x : Rat}
    {n : Int} (takes : position.Takes undefined x n) {record : domain.Record}
    (valid : validate domain record = true) :
    ∃ new, storedRecord undefined domain (loneEntry x position) record = some new := by
  have fields := patchedFieldOf_loneEntry undefined takes record
  obtain ⟨new, patched⟩ := Option.isSome_iff_exists.mp
    (patchRecord_isSome undefined fun other => by rw [fields other, Option.isSome_some])
  have shown : ∀ other, fieldOf domain new other = loneField n record other position := by
    intro other
    have both := patchRecord_fields undefined patched other
    rw [fields other] at both
    exact (Option.some.inj both).symm
  refine ⟨new, (storedRecord_eq_some_iff undefined).mpr ⟨patched, ?_⟩⟩
  cases position with
  | channel io => rwa [fieldOf_ext shown]
  | field f => exact (validate_changed_iff valid shown).mpr takes.2

theorem entryChannel_loneEntry {domain : Domain} {position : NumberPosition domain} {x : Rat}
    {n : Int} (takes : position.Takes undefined x n) :
    ∃ channel, entryChannel domain (loneEntry x position) = some channel := by
  have named : strEq (ascii "channel") "channel" = true := by decide
  cases position with
  | channel io =>
      refine ⟨⟨_, truncate_toNat_lt takes.1.1 takes.1.2⟩, ?_⟩
      simp only [entryChannel, cJsonGetObjectItemCaseSensitive, loneEntry, List.find?_cons, named,
        Option.map_some]
      exact dif_pos takes.1
  | field f =>
      have inside : (0 : Rat) ≤ 0 ∧ (0 : Rat) < (domain.count : Rat) := by
        cases domain <;> exact ⟨le_rfl, by decide⟩
      refine ⟨⟨_, truncate_toNat_lt inside.1 inside.2⟩, ?_⟩
      simp only [entryChannel, cJsonGetObjectItemCaseSensitive, loneEntry, List.find?_cons, named,
        Option.map_some]
      exact dif_pos inside

/-- A number is taken exactly or refused, at any position of any entry, exactly when it is
an integer or no conversion to an integer gets it past the checks. -/
theorem numberExact_iff {domain : Domain} (position : NumberPosition domain) (x : Rat) :
    NumberExact undefined position x ↔ position.Faithful undefined x := by
  rw [NumberPosition.faithful_iff]
  constructor
  · intro always n takes
    have valid := ConfigCache.valid_defaults
    have ready : (⟨.atDefaults, .reset⟩ : Import).manager.initialised = true := rfl
    obtain ⟨channel, addressed⟩ := entryChannel_loneEntry undefined takes
    obtain ⟨new, stored⟩ := storedRecord_loneEntry undefined takes (valid ⟨domain, channel⟩)
    have offered := lookup_loneEntry x position
    have outcome := always (loneEntry x position) "" 0 0 _ ready valid offered
    rcases importEntry_cases undefined offered "" 0 0 ready with
      ⟨-, unfit⟩ | ⟨place, record, applied, -⟩
    · have clash := stored.symm.trans (unfit channel fun _ => ⟨addressed, maskHas_zero _⟩)
      cases clash
    · rcases outcome with ⟨unchanged, -⟩ | ⟨-, -, -, m, -, whole, inside, -⟩
      · rw [applied] at unchanged
        cases unchanged
      · rw [whole] at takes ⊢
        rw [NumberPosition.takes_intCast undefined inside takes]
  · exact numberExact_of_takes undefined

end Numbers

/-- The channel 2.5 is accepted as channel 2. -/
theorem numberExact_fails_at_fraction :
    ¬NumberExact (fun _ => int32Min) (.channel (by decide : Domain.di ≠ .system)) (5 / 2) := by
  intro always
  have outcome := always (loneEntry (5 / 2) _) "di" 0 0 ⟨.atDefaults, .reset⟩ rfl
    ConfigCache.valid_defaults (lookup_loneEntry _ _)
  rcases outcome with ⟨unchanged, -⟩ | ⟨-, -, -, n, -, whole, -⟩
  · revert unchanged
    decide +kernel
  · have den := congrArg Rat.den whole
    rw [Rat.den_intCast] at den
    revert den
    decide +kernel

end ConfigWp
