import ConfigWp.Application.ConfigRuns

/-! The validators as ranges. What a validator accepts survives the wire, every
default is accepted, and on a record read from the wire the verdict is a range
condition on a few of its bytes. -/

set_option autoImplicit false

namespace ConfigWp

open LittleEndian

def InRange : (domain : Domain) → domain.Record → Prop
  | .di, record =>
      record.name.last = 0 ∧ record.polarity < diPolarityCount ∧
        record.faultState < faultStateCount
  | .do_, record =>
      record.name.last = 0 ∧ record.polarity < doPolarityCount ∧
        record.faultState < faultStateCount
  | .tc, record =>
      record.name.last = 0 ∧ record.tcType < tcTypeCount ∧ record.unit < tcUnitCount ∧
        record.faultState < faultStateCount
  | .ai, record =>
      record.name.last = 0 ∧ record.inputMode < aiInputModeCount ∧
        record.faultState < faultStateCount ∧ record.scaleDen ≠ 0
  | .ao, record =>
      record.name.last = 0 ∧ record.outputMode < aoOutputModeCount ∧
        record.faultState < faultStateCount ∧ record.scaleDen ≠ 0
  | .pcnt, record =>
      record.name.last = 0 ∧ record.mode < pcntModeCount ∧ record.edge < pcntEdgeCount
  | .pwm, record =>
      record.name.last = 0 ∧ record.periodUs ≠ 0 ∧ record.dutyPermille ≤ 1000 ∧
        record.faultDutyPermille ≤ 1000 ∧ record.faultState < faultStateCount
  | .system, record =>
      (1 ≤ record.canopenNodeId ∧ record.canopenNodeId ≤ 127) ∧
        record.canBitrate < canBitrateCount ∧ record.nmtStartup < nmtStartupCount ∧
        (record.producerEmcyCobId = 0 ∨ 0x81 ≤ record.producerEmcyCobId)

theorem validate_iff (domain : Domain) (record : domain.Record) :
    validate domain record = true ↔ InRange domain record := by
  cases domain with
  | di => simp [validate, validateDi, nameIsTerminated, InRange]
  | do_ => simp [validate, validateDo, nameIsTerminated, InRange]
  | tc => simp [validate, validateTc, nameIsTerminated, InRange]
  | ai => simp [validate, validateAi, nameIsTerminated, InRange]
  | ao => simp [validate, validateAo, nameIsTerminated, InRange]
  | pcnt => simp [validate, validatePcnt, nameIsTerminated, InRange]
  | pwm => simp [validate, validatePwm, nameIsTerminated, InRange]
  | system =>
      have positive : ¬record.canopenNodeId = 0 ↔ 1 ≤ record.canopenNodeId := by
        rw [UInt8.le_iff_toNat_le, ← UInt8.toNat_inj, UInt8.toNat_one, UInt8.toNat_zero]
        omega
      simp [validate, validateSystem, InRange, positive]

/-- Every factory default passes its own validator. -/
theorem validate_default (domain : Domain) : validate domain domain.default = true := by
  cases domain <;> decide

/-- What a validator accepts survives the wire. -/
theorem wireable_of_validate {domain : Domain} {record : domain.Record}
    (valid : validate domain record = true) : Wireable domain record := by
  have narrow : ∀ {cell bound : UInt32}, cell < bound → bound ≤ 256 → cell < 256 :=
    fun below small => UInt32.lt_of_lt_of_le below small
  have ranges := (validate_iff domain record).mp valid
  cases domain with
  | di => exact ⟨ranges.1, narrow ranges.2.1 (by decide), narrow ranges.2.2 (by decide)⟩
  | do_ => exact ⟨ranges.1, narrow ranges.2.1 (by decide), narrow ranges.2.2 (by decide)⟩
  | tc =>
      exact ⟨ranges.1, narrow ranges.2.1 (by decide), narrow ranges.2.2.1 (by decide),
        narrow ranges.2.2.2 (by decide)⟩
  | ai => exact ⟨ranges.1, narrow ranges.2.1 (by decide), narrow ranges.2.2.1 (by decide)⟩
  | ao => exact ⟨ranges.1, narrow ranges.2.1 (by decide), narrow ranges.2.2.1 (by decide)⟩
  | pcnt => exact ⟨ranges.1, narrow ranges.2.1 (by decide), narrow ranges.2.2 (by decide)⟩
  | pwm => exact ⟨ranges.1, narrow ranges.2.2.2.2 (by decide)⟩
  | system => exact ⟨narrow ranges.2.1 (by decide), narrow ranges.2.2.1 (by decide)⟩

/-! Ranges on the wire. -/

/-- The bytes of a record value that decide whether the decoded record is valid. -/
def WireInRange : Domain → List UInt8 → Prop
  | .di, p => p.getD 20 0 < 2 ∧ p.getD 21 0 < 3
  | .do_, p => p.getD 18 0 < 2 ∧ p.getD 19 0 < 3
  | .tc, p => p.getD 18 0 < 8 ∧ p.getD 19 0 < 3 ∧ p.getD 23 0 < 3
  | .ai, p => p.getD 18 0 < 3 ∧ p.getD 33 0 < 3 ∧ read32 (p.drop 25) ≠ 0
  | .ao, p => p.getD 18 0 < 2 ∧ p.getD 33 0 < 3 ∧ read32 (p.drop 25) ≠ 0
  | .pcnt, p => p.getD 18 0 < 2 ∧ p.getD 19 0 < 3
  | .pwm, p =>
      read32 (p.drop 18) ≠ 0 ∧ read16 (p.drop 22) ≤ 1000 ∧ read16 (p.drop 25) ≤ 1000 ∧
        p.getD 24 0 < 3
  | .system, p =>
      (1 ≤ p.getD 0 0 ∧ p.getD 0 0 ≤ 127) ∧ p.getD 1 0 < 4 ∧ p.getD 8 0 < 2 ∧
        (read32 (p.drop 9) = 0 ∨ 0x81 ≤ read32 (p.drop 9))

instance (domain : Domain) (p : List UInt8) : Decidable (WireInRange domain p) := by
  cases domain <;> unfold WireInRange <;> exact inferInstance

private theorem widened_lt (byte bound : UInt8) :
    byte.toUInt32 < bound.toUInt32 ↔ byte < bound := by
  rw [UInt32.lt_iff_toNat_lt, UInt8.lt_iff_toNat_lt, UInt8.toNat_toUInt32, UInt8.toNat_toUInt32]

private theorem toInt32_ne_zero (word : UInt32) : word.toInt32 ≠ 0 ↔ word ≠ 0 := by
  constructor
  · rintro nonzero rfl
    exact nonzero rfl
  · intro nonzero zero
    have back := congrArg Int32.toUInt32 zero
    rw [UInt32.toUInt32_toInt32] at back
    exact nonzero back

private theorem getD_drop_zero (p : List UInt8) (count : Nat) :
    (p.drop count).getD 0 0 = p.getD count 0 := by
  simp only [List.getD, List.getElem?_drop, Nat.add_zero]

theorem inRange_get_iff (domain : Domain) (p : List UInt8) :
    InRange domain (domain.get p) ↔ WireInRange domain p := by
  have two : (2 : UInt32) = (2 : UInt8).toUInt32 := rfl
  have three : (3 : UInt32) = (3 : UInt8).toUInt32 := rfl
  have four : (4 : UInt32) = (4 : UInt8).toUInt32 := rfl
  have eight : (8 : UInt32) = (8 : UInt8).toUInt32 := rfl
  cases domain with
  | di =>
      simp only [InRange, WireInRange, Domain.get, getDi, getName, getU16, getEnum, getU8,
        List.drop_drop, Nat.reduceAdd, getD_drop_zero, Name.last_terminate, true_and,
        configNameLen, diPolarityCount, faultStateCount, two, three, widened_lt]
  | do_ =>
      simp only [InRange, WireInRange, Domain.get, getDo, getName, getU16, getEnum, getU8,
        List.drop_drop, Nat.reduceAdd, getD_drop_zero, Name.last_terminate, true_and,
        configNameLen, doPolarityCount, faultStateCount, two, three, widened_lt]
  | tc =>
      simp only [InRange, WireInRange, Domain.get, getTc, getName, getU16, getEnum, getU8, getBool,
        List.drop_drop, Nat.reduceAdd, getD_drop_zero, Name.last_terminate, true_and,
        configNameLen, tcTypeCount, tcUnitCount, faultStateCount, eight, three, widened_lt]
  | ai =>
      simp only [InRange, WireInRange, Domain.get, getAi, getName, getU16, getU32, getI32, getEnum,
        getU8, List.drop_drop, Nat.reduceAdd, getD_drop_zero, Name.last_terminate, true_and,
        configNameLen, aiInputModeCount, faultStateCount, three, widened_lt, toInt32_ne_zero]
  | ao =>
      simp only [InRange, WireInRange, Domain.get, getAo, getName, getU16, getU32, getI32, getEnum,
        getU8, List.drop_drop, Nat.reduceAdd, getD_drop_zero, Name.last_terminate, true_and,
        configNameLen, aoOutputModeCount, faultStateCount, two, three, widened_lt, toInt32_ne_zero]
  | pcnt =>
      simp only [InRange, WireInRange, Domain.get, getPcnt, getName, getU16, getEnum, getU8,
        List.drop_drop, Nat.reduceAdd, getD_drop_zero, Name.last_terminate, true_and,
        configNameLen, pcntModeCount, pcntEdgeCount, two, three, widened_lt]
  | pwm =>
      simp only [InRange, WireInRange, Domain.get, getPwm, getName, getU16, getU32, getEnum, getU8,
        List.drop_drop, Nat.reduceAdd, getD_drop_zero, Name.last_terminate, true_and,
        configNameLen, faultStateCount, three, widened_lt]
  | system =>
      simp only [InRange, WireInRange, Domain.get, getSystem, getU8, getU16, getU32, getEnum,
        List.drop_drop, Nat.reduceAdd, getD_drop_zero, canBitrateCount, nmtStartupCount, four, two,
        widened_lt]

theorem validate_get_iff (domain : Domain) (p : List UInt8) :
    validate domain (domain.get p) = true ↔ WireInRange domain p :=
  (validate_iff domain (domain.get p)).trans (inRange_get_iff domain p)

end ConfigWp
