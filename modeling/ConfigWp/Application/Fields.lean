import ConfigWp.Application.ConfigJson
import ConfigWp.Application.ConfigValid
import ConfigWp.Application.EepromManager

/-! Records as families of fields. Every field has a value that does not depend on
the width it is stored in, a key in the document and a kind; a record is determined
by its fields, and it is valid exactly when each field is. -/

set_option autoImplicit false

namespace ConfigWp

/-- The fields of an analogue output. Its requests reach five of them only. -/
inductive AoField where
  | name | id | outputMode | slewPerS | scaleNum | scaleDen | offset | faultState | faultValue
  deriving DecidableEq, Repr

abbrev Domain.Field : Domain → Type
  | .di => DiParam
  | .do_ => DoParam
  | .tc => TcParam
  | .ai => AiParam
  | .ao => AoField
  | .pcnt => PcntParam
  | .pwm => PwmParam
  | .system => SystemParam

instance fieldDecidableEq (domain : Domain) : DecidableEq domain.Field := by
  cases domain <;> exact inferInstance

inductive FieldValue where
  | text (name : Name)
  | flag (value : Bool)
  | number (value : Int)
  deriving DecidableEq, Repr

/-- What a field holds: a name, a flag, an integer of a number of bits, or the code of
an enumeration with a string for each code it names. -/
inductive FieldKind where
  | text
  | flag
  | unsigned (bits : Nat)
  | signed (bits : Nat)
  | choice (count : UInt32) (toStr : UInt32 → Option String)

structure FieldShape where
  key : String
  kind : FieldKind

def diField (record : DiConfig) : DiParam → FieldValue
  | .name => .text record.name
  | .id => .number record.id.toNat
  | .debounceMs => .number record.debounceMs.toNat
  | .polarity => .number record.polarity.toNat
  | .faultState => .number record.faultState.toNat
  | .interruptEnabled => .flag record.interruptEnabled

def doField (record : DoConfig) : DoParam → FieldValue
  | .name => .text record.name
  | .id => .number record.id.toNat
  | .polarity => .number record.polarity.toNat
  | .faultState => .number record.faultState.toNat

def tcField (record : TcConfig) : TcParam → FieldValue
  | .name => .text record.name
  | .id => .number record.id.toNat
  | .tcType => .number record.tcType.toNat
  | .unit => .number record.unit.toNat
  | .cjcEnabled => .flag record.cjcEnabled
  | .filterMs => .number record.filterMs.toNat
  | .faultState => .number record.faultState.toNat
  | .faultValueC10 => .number record.faultValueC10.toInt

def aiField (record : AiConfig) : AiParam → FieldValue
  | .name => .text record.name
  | .id => .number record.id.toNat
  | .inputMode => .number record.inputMode.toNat
  | .filterMs => .number record.filterMs.toNat
  | .scaleNum => .number record.scaleNum.toInt
  | .scaleDen => .number record.scaleDen.toInt
  | .offset => .number record.offset.toInt
  | .faultState => .number record.faultState.toNat
  | .faultValue => .number record.faultValue.toInt

def aoField (record : AoConfig) : AoField → FieldValue
  | .name => .text record.name
  | .id => .number record.id.toNat
  | .outputMode => .number record.outputMode.toNat
  | .slewPerS => .number record.slewPerS.toNat
  | .scaleNum => .number record.scaleNum.toInt
  | .scaleDen => .number record.scaleDen.toInt
  | .offset => .number record.offset.toInt
  | .faultState => .number record.faultState.toNat
  | .faultValue => .number record.faultValue.toInt

def pcntField (record : PcntConfig) : PcntParam → FieldValue
  | .name => .text record.name
  | .id => .number record.id.toNat
  | .mode => .number record.mode.toNat
  | .edge => .number record.edge.toNat
  | .limit => .number record.limit.toNat
  | .resetOnRead => .flag record.resetOnRead

def pwmField (record : PwmConfig) : PwmParam → FieldValue
  | .name => .text record.name
  | .id => .number record.id.toNat
  | .periodUs => .number record.periodUs.toNat
  | .dutyPermille => .number record.dutyPermille.toNat
  | .faultState => .number record.faultState.toNat
  | .faultDutyPermille => .number record.faultDutyPermille.toNat

def systemField (record : SystemConfig) : SystemParam → FieldValue
  | .canopenNodeId => .number record.canopenNodeId.toNat
  | .canBitrate => .number record.canBitrate.toNat
  | .heartbeatMs => .number record.heartbeatMs.toNat
  | .syncWindowUs => .number record.syncWindowUs.toNat
  | .nmtStartup => .number record.nmtStartup.toNat
  | .producerEmcyCobId => .number record.producerEmcyCobId.toNat

def fieldOf : (domain : Domain) → domain.Record → domain.Field → FieldValue
  | .di => diField
  | .do_ => doField
  | .tc => tcField
  | .ai => aiField
  | .ao => aoField
  | .pcnt => pcntField
  | .pwm => pwmField
  | .system => systemField

/-! Keys and kinds, as the patchers of `config_json.c` name them. -/

def diShape : DiParam → FieldShape
  | .name => ⟨"name", .text⟩
  | .id => ⟨"id", .unsigned 16⟩
  | .debounceMs => ⟨"debounce_ms", .unsigned 16⟩
  | .polarity => ⟨"polarity", .choice diPolarityCount diPolarityToStr⟩
  | .faultState => ⟨"fault_state", .choice faultStateCount faultStateToStr⟩
  | .interruptEnabled => ⟨"interrupt_enabled", .flag⟩

def doShape : DoParam → FieldShape
  | .name => ⟨"name", .text⟩
  | .id => ⟨"id", .unsigned 16⟩
  | .polarity => ⟨"polarity", .choice doPolarityCount doPolarityToStr⟩
  | .faultState => ⟨"fault_state", .choice faultStateCount faultStateToStr⟩

def tcShape : TcParam → FieldShape
  | .name => ⟨"name", .text⟩
  | .id => ⟨"id", .unsigned 16⟩
  | .tcType => ⟨"tc_type", .choice tcTypeCount tcTypeToStr⟩
  | .unit => ⟨"unit", .choice tcUnitCount tcUnitToStr⟩
  | .cjcEnabled => ⟨"cjc_enabled", .flag⟩
  | .filterMs => ⟨"filter_ms", .unsigned 16⟩
  | .faultState => ⟨"fault_state", .choice faultStateCount faultStateToStr⟩
  | .faultValueC10 => ⟨"fault_value_c10", .signed 16⟩

def aiShape : AiParam → FieldShape
  | .name => ⟨"name", .text⟩
  | .id => ⟨"id", .unsigned 16⟩
  | .inputMode => ⟨"input_mode", .choice aiInputModeCount aiInputModeToStr⟩
  | .filterMs => ⟨"filter_ms", .unsigned 16⟩
  | .scaleNum => ⟨"scale_num", .signed 32⟩
  | .scaleDen => ⟨"scale_den", .signed 32⟩
  | .offset => ⟨"offset", .signed 32⟩
  | .faultState => ⟨"fault_state", .choice faultStateCount faultStateToStr⟩
  | .faultValue => ⟨"fault_value", .signed 32⟩

def aoShape : AoField → FieldShape
  | .name => ⟨"name", .text⟩
  | .id => ⟨"id", .unsigned 16⟩
  | .outputMode => ⟨"output_mode", .choice aoOutputModeCount aoOutputModeToStr⟩
  | .slewPerS => ⟨"slew_per_s", .unsigned 16⟩
  | .scaleNum => ⟨"scale_num", .signed 32⟩
  | .scaleDen => ⟨"scale_den", .signed 32⟩
  | .offset => ⟨"offset", .signed 32⟩
  | .faultState => ⟨"fault_state", .choice faultStateCount faultStateToStr⟩
  | .faultValue => ⟨"fault_value", .signed 32⟩

def pcntShape : PcntParam → FieldShape
  | .name => ⟨"name", .text⟩
  | .id => ⟨"id", .unsigned 16⟩
  | .mode => ⟨"mode", .choice pcntModeCount pcntModeToStr⟩
  | .edge => ⟨"edge", .choice pcntEdgeCount pcntEdgeToStr⟩
  | .limit => ⟨"limit", .unsigned 32⟩
  | .resetOnRead => ⟨"reset_on_read", .flag⟩

def pwmShape : PwmParam → FieldShape
  | .name => ⟨"name", .text⟩
  | .id => ⟨"id", .unsigned 16⟩
  | .periodUs => ⟨"period_us", .unsigned 32⟩
  | .dutyPermille => ⟨"duty_permille", .unsigned 16⟩
  | .faultState => ⟨"fault_state", .choice faultStateCount faultStateToStr⟩
  | .faultDutyPermille => ⟨"fault_duty_permille", .unsigned 16⟩

def systemShape : SystemParam → FieldShape
  | .canopenNodeId => ⟨"canopen_node_id", .unsigned 8⟩
  | .canBitrate => ⟨"can_bitrate", .choice canBitrateCount canBitrateToStr⟩
  | .heartbeatMs => ⟨"heartbeat_ms", .unsigned 16⟩
  | .syncWindowUs => ⟨"sync_window_us", .unsigned 32⟩
  | .nmtStartup => ⟨"nmt_startup", .choice nmtStartupCount nmtStartupToStr⟩
  | .producerEmcyCobId => ⟨"producer_emcy_cob_id", .unsigned 32⟩

def fieldShape : (domain : Domain) → domain.Field → FieldShape
  | .di => diShape
  | .do_ => doShape
  | .tc => tcShape
  | .ai => aiShape
  | .ao => aoShape
  | .pcnt => pcntShape
  | .pwm => pwmShape
  | .system => systemShape

abbrev fieldKey (domain : Domain) (field : domain.Field) : String := (fieldShape domain field).key

abbrev fieldKind (domain : Domain) (field : domain.Field) : FieldKind :=
  (fieldShape domain field).kind

/-- The values a field of this kind can store. -/
def FieldKind.Holds : FieldKind → FieldValue → Prop
  | .text, .text _ => True
  | .flag, .flag _ => True
  | .unsigned bits, .number value => 0 ≤ value ∧ value < 2 ^ bits
  | .signed bits, .number value => -2 ^ (bits - 1) ≤ value ∧ value < 2 ^ (bits - 1)
  | .choice _ _, .number value => 0 ≤ value ∧ value < 2 ^ 32
  | _, _ => False

/-! The validators field by field. -/

/-- The checks that go beyond the range of an enumeration. -/
def numberCheck : (domain : Domain) → domain.Field → Int → Prop
  | .ai, .scaleDen, value => value ≠ 0
  | .ao, .scaleDen, value => value ≠ 0
  | .pwm, .periodUs, value => value ≠ 0
  | .pwm, .dutyPermille, value => value ≤ 1000
  | .pwm, .faultDutyPermille, value => value ≤ 1000
  | .system, .canopenNodeId, value => 1 ≤ value ∧ value ≤ 127
  | .system, .producerEmcyCobId, value => value = 0 ∨ 0x81 ≤ value
  | _, _, _ => True

def FieldKind.Names : FieldKind → Int → Prop
  | .choice count _, value => value < count.toNat
  | _, _ => True

@[simp] theorem FieldKind.names_unsigned (bits : Nat) (value : Int) :
    (FieldKind.unsigned bits).Names value ↔ True := Iff.rfl
@[simp] theorem FieldKind.names_signed (bits : Nat) (value : Int) :
    (FieldKind.signed bits).Names value ↔ True := Iff.rfl
@[simp] theorem FieldKind.names_choice (count : UInt32) (toStr : UInt32 → Option String)
    (value : Int) : (FieldKind.choice count toStr).Names value ↔ value < count.toNat := Iff.rfl

def fieldLegal (domain : Domain) (field : domain.Field) : FieldValue → Prop
  | .text name => name.last = 0
  | .flag _ => True
  | .number value => (fieldKind domain field).Names value ∧ numberCheck domain field value

/-! Quantifying over the fields of a type. -/

def Domain.fields : (domain : Domain) → List domain.Field
  | .di => [.name, .id, .debounceMs, .polarity, .faultState, .interruptEnabled]
  | .do_ => [.name, .id, .polarity, .faultState]
  | .tc => [.name, .id, .tcType, .unit, .cjcEnabled, .filterMs, .faultState, .faultValueC10]
  | .ai =>
      [.name, .id, .inputMode, .filterMs, .scaleNum, .scaleDen, .offset, .faultState, .faultValue]
  | .ao =>
      [.name, .id, .outputMode, .slewPerS, .scaleNum, .scaleDen, .offset, .faultState, .faultValue]
  | .pcnt => [.name, .id, .mode, .edge, .limit, .resetOnRead]
  | .pwm => [.name, .id, .periodUs, .dutyPermille, .faultState, .faultDutyPermille]
  | .system =>
      [.canopenNodeId, .canBitrate, .heartbeatMs, .syncWindowUs, .nmtStartup, .producerEmcyCobId]

theorem Domain.mem_fields {domain : Domain} (field : domain.Field) : field ∈ domain.fields := by
  cases domain <;> cases field <;> decide

theorem forall_field_iff {domain : Domain} {p : domain.Field → Prop} :
    (∀ field, p field) ↔ ∀ field ∈ domain.fields, p field :=
  ⟨fun all field _ => all field, fun all field => all field (Domain.mem_fields field)⟩

theorem strEq_fieldKey (domain : Domain) (field other : domain.Field) :
    strEq (ascii (fieldKey domain field)) (fieldKey domain other) = decide (field = other) := by
  have keys : ∀ domain ∈ Domain.all, ∀ field ∈ domain.fields, ∀ other ∈ domain.fields,
      strEq (ascii (fieldKey domain field)) (fieldKey domain other) = decide (field = other) := by
    decide +kernel
  exact keys domain domain.mem_all field (Domain.mem_fields _) other (Domain.mem_fields _)

theorem strEq_channel_fieldKey (domain : Domain) (field : domain.Field) :
    strEq (ascii "channel") (fieldKey domain field) = false := by
  have keys : ∀ domain ∈ Domain.all, ∀ field ∈ domain.fields,
      strEq (ascii "channel") (fieldKey domain field) = false := by decide +kernel
  exact keys domain domain.mem_all field (Domain.mem_fields _)

/-- A record is the family of its fields. -/
theorem fieldOf_ext {domain : Domain} {left right : domain.Record}
    (same : ∀ field, fieldOf domain left field = fieldOf domain right field) : left = right := by
  rw [forall_field_iff] at same
  cases domain <;> cases left <;> cases right <;>
    simpa [Domain.fields, fieldOf, diField, doField, tcField, aiField, aoField, pcntField, pwmField,
      systemField, UInt8.toNat_inj, UInt16.toNat_inj, UInt32.toNat_inj, Int16.toInt_inj,
      Int32.toInt_inj] using same

private theorem holds_toInt16 (value : Int16) :
    (FieldKind.signed 16).Holds (.number value.toInt) :=
  ⟨value.le_toInt, value.toInt_lt⟩

private theorem holds_toInt32 (value : Int32) :
    (FieldKind.signed 32).Holds (.number value.toInt) :=
  ⟨value.le_toInt, value.toInt_lt⟩

/-- Each field of a record has a value that its kind can store. -/
theorem holds_fieldOf (domain : Domain) (record : domain.Record) (field : domain.Field) :
    (fieldKind domain field).Holds (fieldOf domain record field) := by
  cases domain <;> cases field
  all_goals first
    | exact trivial
    | exact ⟨Int.natCast_nonneg _, Int.ofNat_lt.mpr (UInt16.toNat_lt _)⟩
    | exact ⟨Int.natCast_nonneg _, Int.ofNat_lt.mpr (UInt32.toNat_lt _)⟩
    | exact ⟨Int.natCast_nonneg _, Int.ofNat_lt.mpr (UInt8.toNat_lt _)⟩
    | exact holds_toInt32 _
    | exact holds_toInt16 _

private theorem toInt_eq_zero {value : Int32} : value.toInt = 0 ↔ value = 0 := by
  rw [← Int32.toInt_inj, Int32.toInt_zero]

/-- A record is valid exactly when each of its fields is. -/
theorem inRange_iff_fields {domain : Domain} {record : domain.Record} :
    InRange domain record ↔ ∀ field, fieldLegal domain field (fieldOf domain record field) := by
  rw [forall_field_iff]
  cases domain with
  | di =>
      simp [Domain.fields, InRange, fieldLegal, fieldOf, diField, fieldKind, fieldShape, diShape,
        numberCheck, UInt32.lt_iff_toNat_lt]
  | do_ =>
      simp [Domain.fields, InRange, fieldLegal, fieldOf, doField, fieldKind, fieldShape, doShape,
        numberCheck, UInt32.lt_iff_toNat_lt]
  | tc =>
      simp [Domain.fields, InRange, fieldLegal, fieldOf, tcField, fieldKind, fieldShape, tcShape,
        numberCheck, UInt32.lt_iff_toNat_lt]
  | ai =>
      simp [Domain.fields, InRange, fieldLegal, fieldOf, aiField, fieldKind, fieldShape, aiShape,
        numberCheck, UInt32.lt_iff_toNat_lt, toInt_eq_zero]
      tauto
  | ao =>
      simp [Domain.fields, InRange, fieldLegal, fieldOf, aoField, fieldKind, fieldShape, aoShape,
        numberCheck, UInt32.lt_iff_toNat_lt, toInt_eq_zero]
      tauto
  | pcnt =>
      simp [Domain.fields, InRange, fieldLegal, fieldOf, pcntField, fieldKind, fieldShape,
        pcntShape, numberCheck, UInt32.lt_iff_toNat_lt]
  | pwm =>
      simp [Domain.fields, InRange, fieldLegal, fieldOf, pwmField, fieldKind, fieldShape, pwmShape,
        numberCheck, UInt32.lt_iff_toNat_lt, UInt16.le_iff_toNat_le, ← UInt32.toNat_inj]
      tauto
  | system =>
      simp [Domain.fields, InRange, fieldLegal, fieldOf, systemField, fieldKind, fieldShape,
        systemShape, numberCheck, UInt32.lt_iff_toNat_lt, UInt8.le_iff_toNat_le,
        UInt32.le_iff_toNat_le, ← UInt32.toNat_inj]

/-- A record that differs from a valid one in one field is valid exactly
when the value there is legal. -/
theorem validate_changed_iff {domain : Domain} {old new : domain.Record} {field : domain.Field}
    {stored : FieldValue} (valid : validate domain old = true)
    (changed : ∀ other, fieldOf domain new other =
      if other = field then stored else fieldOf domain old other) :
    validate domain new = true ↔ fieldLegal domain field stored := by
  rw [validate_iff, inRange_iff_fields] at valid ⊢
  constructor
  · intro legal
    have checked := legal field
    rwa [changed, if_pos rfl] at checked
  · intro legal other
    rw [changed]
    split_ifs with same
    · subst same
      exact legal
    · exact valid other

/-! The fields of the whole cache. -/

structure FieldPlace where
  key : RecordKey
  field : key.domain.Field
  deriving DecidableEq

def ConfigCache.field (cache : ConfigCache) (place : FieldPlace) : FieldValue :=
  fieldOf place.key.domain (cache.get place.key) place.field

theorem ConfigCache.field_set_same (cache : ConfigCache) (key : RecordKey)
    (record : key.domain.Record) (field : key.domain.Field) :
    (cache.set key record).field ⟨key, field⟩ = fieldOf key.domain record field := by
  rw [ConfigCache.field, ConfigCache.get_set_same]

theorem ConfigCache.field_set_other (cache : ConfigCache) {key : RecordKey}
    (record : key.domain.Record) {place : FieldPlace} (apart : place.key ≠ key) :
    (cache.set key record).field place = cache.field place := by
  rw [ConfigCache.field, ConfigCache.get_set_other _ _ apart, ConfigCache.field]

end ConfigWp
