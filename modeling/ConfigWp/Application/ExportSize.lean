import ConfigWp.Application.ExportRoundTrip
import Mathlib.Algebra.Order.BigOperators.Group.List

/-! How long the text of an export gets. Every kind of field has a longest value, so the
layout of a record has a longest text; that of a whole document follows by counting. -/

set_option autoImplicit false

namespace ConfigWp

/-! The layout. -/

theorem length_escapeChar_le (char : UInt8) : (escapeChar char).length ≤ 6 := by
  rw [escapeChar]
  split_ifs <;> simp [ascii]

theorem length_printString_le (chars : List UInt8) :
    (printString chars).length ≤ 2 + 6 * chars.length := by
  have escaped : (chars.flatMap escapeChar).length ≤ 6 * chars.length := by
    induction chars with
    | nil => exact Nat.le_refl _
    | cons char chars ih =>
        have one := length_escapeChar_le char
        rw [List.flatMap_cons, List.length_append, List.length_cons]
        omega
  rw [printString, List.length_append, List.length_append, List.length_singleton]
  omega

/-- A member with its tabs, its colon and its comma, around a value of that length. -/
def memberRoom (depth : Nat) (name : List UInt8) (value : Nat) : Nat :=
  depth + (printString name).length + value + 4

def membersRoom (depth : Nat) (members : Members) : Nat :=
  (members.map fun member => memberRoom depth member.1 (printValue depth member.2).length).sum

theorem length_printMembers_le (depth : Nat) (members : Members) :
    (printMembers depth members).length ≤ membersRoom depth members := by
  induction members with
  | nil => exact Nat.le_refl _
  | cons member members ih =>
      obtain ⟨name, child⟩ := member
      have comma : (if members.isEmpty then [] else ([0x2C] : List UInt8)).length ≤ 1 := by
        split_ifs <;> simp
      rw [membersRoom] at ih ⊢
      rw [printMembers, List.map_cons, List.sum_cons, memberRoom]
      simp only [List.length_append, List.length_replicate, List.length_cons, List.length_nil]
      omega

theorem length_printItems_le (depth : Nat) (items : List Json) :
    (printItems depth items).length ≤
      (items.map fun item => (printValue depth item).length + 2).sum := by
  induction items with
  | nil => exact Nat.le_refl _
  | cons item items ih =>
      have comma : (if items.isEmpty then [] else ([0x2C, 0x20] : List UInt8)).length ≤ 2 := by
        split_ifs <;> simp
      rw [printItems, List.map_cons, List.sum_cons, List.length_append, List.length_append]
      omega

theorem length_printObject_le (depth : Nat) (members : Members) :
    (printValue depth (.object members)).length ≤ 4 + depth + membersRoom (depth + 1) members := by
  have inner := length_printMembers_le (depth + 1) members
  rw [printValue]
  simp only [List.length_append, List.length_replicate, List.length_cons, List.length_nil]
  omega

theorem length_printArray_le (depth : Nat) (items : List Json) {room : Nat}
    (each : ∀ item ∈ items, (printValue (depth + 1) item).length ≤ room) :
    (printValue depth (.array items)).length ≤ 2 + items.length * (room + 2) := by
  have inner := length_printItems_le (depth + 1) items
  have total : (items.map fun item => (printValue (depth + 1) item).length + 2).sum ≤
      items.length * (room + 2) := by
    rw [← List.length_map (fun item => (printValue (depth + 1) item).length + 2)]
    refine List.sum_le_card_nsmul _ _ fun length listed => ?_
    obtain ⟨item, member, rfl⟩ := List.mem_map.mp listed
    exact Nat.add_le_add_right (each item member) 2
  have opening : (ascii "[").length = 1 := rfl
  have closing : (ascii "]").length = 1 := rfl
  rw [printValue, List.length_append, List.length_append]
  omega

/-! Numbers. -/

theorem length_ascii (text : String) : (ascii text).length = text.length := by
  rw [ascii, List.length_map, String.length_toList]

theorem length_repr_mono {n m : Nat} (le : n ≤ m) : n.repr.length ≤ m.repr.length :=
  (Nat.length_repr_le_iff Nat.length_repr_pos).mpr
    (le.trans_lt ((Nat.length_repr_le_iff Nat.length_repr_pos).mp (Nat.le_refl _)))

theorem length_printNumber_le (depth : Nat) {value : Int} {below above : Nat}
    (low : -(below : Int) ≤ value) (high : value ≤ above) :
    (printValue depth (.number value)).length ≤
      max above.repr.length (if below = 0 then 0 else 1 + below.repr.length) := by
  have printed : (printValue depth (.number value)).length = value.repr.length := by
    rw [printValue, length_ascii]
    rfl
  rw [printed, Int.repr_eq_if]
  split_ifs with nonneg one two
  · exact le_max_of_le_left (length_repr_mono (by omega))
  · exact le_max_of_le_left (length_repr_mono (by omega))
  · omega
  · have digits := @length_repr_mono (-value).toNat below (by omega)
    have sign : "-".length = 1 := rfl
    rw [String.length_append, sign]
    omega

/-! Fields. -/

def spellingRoom (spelling : Option String) : Nat :=
  (spelling.map fun text => (printString (ascii text)).length).getD 0

/-- The longest text of a value of this kind. A name is kept in fifteen bytes and a zero. -/
def FieldKind.room : FieldKind → Nat
  | .text => 2 + 6 * (configNameLen - 1)
  | .flag => 5
  | .unsigned bits => (2 ^ bits - 1).repr.length
  | .signed bits =>
      max (2 ^ (bits - 1) - 1).repr.length (1 + (2 ^ (bits - 1)).repr.length)
  | .choice count toStr =>
      ((List.range count.toNat).map fun code =>
        spellingRoom (toStr (UInt32.ofNat code))).foldr max 0

theorem le_foldr_max {length : Nat} {lengths : List Nat} (listed : length ∈ lengths) :
    length ≤ lengths.foldr max 0 := by
  induction lengths with
  | nil => cases listed
  | cons first lengths ih =>
      rcases List.mem_cons.mp listed with rfl | later
      · exact le_max_left _ _
      · exact (ih later).trans (le_max_right _ _)

theorem length_exportedMember_le {domain : Domain} {record : domain.Record} {field : domain.Field}
    (legal : fieldLegal domain field (fieldOf domain record field)) {child : Json}
    (exported : exportedMemberOf domain record field = some child) (depth : Nat) :
    (printValue depth child).length ≤ (fieldKind domain field).room := by
  have holds := holds_fieldOf domain record field
  rw [exportedMemberOf] at exported
  rw [fieldLegal.eq_def] at legal
  generalize fieldOf domain record field = value at exported legal holds
  generalize fieldKind domain field = kind at exported legal holds ⊢
  cases kind with
  | text =>
      cases value with
      | text name =>
          obtain rfl := Option.some.inj exported
          have short := cString_length_lt legal
          have layout := length_printString_le (cString name.bytes)
          rw [printValue, FieldKind.room]
          omega
      | _ => cases exported
  | flag =>
      cases value with
      | flag value =>
          obtain rfl := Option.some.inj exported
          rw [printValue]
          cases value <;> decide
      | _ => cases exported
  | unsigned bits =>
      cases value with
      | number value =>
          obtain rfl := Option.some.inj exported
          obtain ⟨low, high⟩ := holds
          have positive : 0 < 2 ^ bits := Nat.two_pow_pos bits
          have within := @length_printNumber_le depth value 0 (2 ^ bits - 1) (by simpa using low)
            (by
              rw [Nat.cast_sub positive]
              push_cast
              omega)
          simpa [FieldKind.room] using within
      | _ => cases exported
  | signed bits =>
      cases value with
      | number value =>
          obtain rfl := Option.some.inj exported
          obtain ⟨low, high⟩ := holds
          have positive : 0 < 2 ^ (bits - 1) := Nat.two_pow_pos _
          have within := @length_printNumber_le depth value (2 ^ (bits - 1)) (2 ^ (bits - 1) - 1)
            (by push_cast; omega) (by
              rw [Nat.cast_sub positive]
              push_cast
              omega)
          rw [if_neg positive.ne'] at within
          exact within
      | _ => cases exported
  | choice count toStr =>
      cases value with
      | number value =>
          obtain ⟨text, spelt, rfl⟩ := Option.map_eq_some_iff.mp exported
          have below := legal.1
          rw [FieldKind.names_choice] at below
          obtain ⟨low, -⟩ := holds
          have listed : value.toNat ∈ List.range count.toNat := List.mem_range.mpr (by omega)
          have longest := le_foldr_max
            (List.mem_map_of_mem listed (f := fun code => spellingRoom (toStr (UInt32.ofNat code))))
          rw [spelt] at longest
          exact longest
      | _ => cases exported

/-! Records. -/

/-- The longest text of a record. A channel has three digits at most. -/
def recordRoom (depth : Nat) (domain : Domain) : Nat :=
  4 + depth +
    ((if domain = .system then 0 else memberRoom (depth + 1) (ascii "channel") 3) +
      (domain.fields.map fun field =>
        memberRoom (depth + 1) (ascii (fieldKey domain field)) (fieldKind domain field).room).sum)

theorem membersRoom_append (depth : Nat) (members rest : Members) :
    membersRoom depth (members ++ rest) = membersRoom depth members + membersRoom depth rest := by
  rw [membersRoom, List.map_append, List.sum_append]
  rfl

theorem membersRoom_exportedMembers_le {domain : Domain} {record : domain.Record}
    (valid : validate domain record = true) (depth : Nat) (fields : List domain.Field) :
    membersRoom depth (exportedMembers domain record fields) ≤
      (fields.map fun field =>
        memberRoom depth (ascii (fieldKey domain field)) (fieldKind domain field).room).sum := by
  induction fields with
  | nil => exact Nat.le_refl _
  | cons field fields ih =>
      have legal := inRange_iff_fields.mp ((validate_iff domain record).mp valid) field
      rw [exportedMembers, List.flatMap_cons, membersRoom_append, List.map_cons, List.sum_cons]
      refine Nat.add_le_add ?_ ih
      cases exported : exportedMemberOf domain record field with
      | none => exact Nat.zero_le _
      | some child =>
          have fits := length_exportedMember_le legal exported depth
          simp only [Option.map_some, Option.toList_some, membersRoom, List.map_cons, List.map_nil,
            List.sum_cons, List.sum_nil, memberRoom]
          omega

theorem membersRoom_exportedChannel_le (depth : Nat) (domain : Domain) (channel : UInt8) :
    membersRoom depth (exportedChannel domain channel) ≤
      if domain = .system then 0 else memberRoom depth (ascii "channel") 3 := by
  rw [exportedChannel]
  split_ifs
  · exact Nat.le_refl _
  · have digits := @length_printNumber_le depth channel.toNat 0 255 (by simp)
      (by exact_mod_cast Nat.le_of_lt_succ channel.toNat_lt)
    rw [if_pos rfl, Nat.max_zero] at digits
    have three : (255 : Nat).repr.length = 3 := by decide
    rw [three, Int.cast_natCast] at digits
    simp only [membersRoom, List.map_cons, List.map_nil, List.sum_cons, List.sum_nil, memberRoom]
    omega

theorem length_buildRecord_le {domain : Domain} {record : domain.Record}
    (valid : validate domain record = true) (depth : Nat) (channel : UInt8) :
    (printValue depth (buildRecord domain channel record)).length ≤ recordRoom depth domain := by
  have layout := length_printObject_le depth
    (exportedChannel domain channel ++ exportedMembers domain record domain.fields)
  have numbered := membersRoom_exportedChannel_le (depth + 1) domain channel
  have named := membersRoom_exportedMembers_le valid (depth + 1) domain.fields
  rw [membersRoom_append] at layout
  rw [buildRecord_eq, recordRoom]
  omega

/-! The document. -/

def arrayRoom (domain : Domain) : Nat :=
  memberRoom 1 (ascii domain.memberName) (2 + domain.count * (recordRoom 2 domain + 2))

def documentRoom : Nat :=
  4 + (memberRoom 1 (ascii "format") 1 + memberRoom 1 (ascii "system") (recordRoom 1 .system) +
    ([.di, .do_, .tc, .ai, .ao, .pcnt, .pwm].map arrayRoom).sum)

theorem length_exportedArray_le {m : Manager} (valid : m.cache.Valid) (domain : Domain) :
    (printValue 1 (.array (exportedEntries domain m))).length ≤
      2 + domain.count * (recordRoom 2 domain + 2) := by
  have count : (exportedEntries domain m).length = domain.count := by
    rw [exportedEntries, List.length_map, List.length_finRange]
  rw [← count]
  refine length_printArray_le 1 _ fun entry listed => ?_
  obtain ⟨channel, -, rfl⟩ := List.mem_map.mp listed
  exact length_buildRecord_le (valid ⟨domain, channel⟩) 2 _

/-- Every valid configuration has a text of that length at most. -/
theorem length_export_le {m : Manager} (ready : m.initialised = true) (valid : m.cache.Valid) :
    (printValue 0 (configExportDocument m)).length ≤ documentRoom := by
  have layout := length_printObject_le 0 (exportedDocument m)
  have format : (printValue 1 (.number 2)).length = 1 := by decide
  have system : (printValue 1 (buildSystem m.cache.system)).length ≤ recordRoom 1 .system :=
    @length_buildRecord_le .system m.cache.system (valid .system) 1 0
  have arrays : membersRoom 1 ([.di, .do_, .tc, .ai, .ao, .pcnt, .pwm].map (exportedArray m)) ≤
      ([.di, .do_, .tc, .ai, .ao, .pcnt, .pwm].map arrayRoom).sum := by
    rw [membersRoom, List.map_map]
    refine List.sum_le_sum fun domain _ => ?_
    have array := length_exportedArray_le valid domain
    simp only [Function.comp_apply, exportedArray, arrayRoom, memberRoom]
    omega
  have split : membersRoom 1 (exportedDocument m) =
      memberRoom 1 (ascii "format") 1 +
        (memberRoom 1 (ascii "system") (printValue 1 (buildSystem m.cache.system)).length +
          membersRoom 1 ([.di, .do_, .tc, .ai, .ao, .pcnt, .pwm].map (exportedArray m))) := by
    rw [exportedDocument, membersRoom, List.map_cons, List.map_cons, List.sum_cons, List.sum_cons,
      format, membersRoom]
  rw [configExportDocument_eq ready, documentRoom]
  rw [Nat.zero_add, split] at layout
  simp only [memberRoom] at layout ⊢
  omega

theorem documentRoom_eq : documentRoom = 15124 := by decide +kernel

end ConfigWp
