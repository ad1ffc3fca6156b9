import ConfigWp.Application.Fields

/-! The record patchers field by field. A patcher succeeds exactly when each member
its record recognises is well formed, and then every field holds what its member
reads as, or what it held before when the member is missing or null. -/

set_option autoImplicit false

namespace ConfigWp

section Patches

variable (undefined : Rat → Int32)

/-- What a present member of a kind reads as. -/
def readField : FieldKind → Json → Option FieldValue
  | .text, .string s =>
      if (cString s).length ≥ configNameLen then none else some (.text (.ofBytes (cString s)))
  | .flag, .bool value => some (.flag value)
  | .unsigned bits, .number v =>
      if v < 0 ∨ v > ((2 ^ bits - 1 : Int) : Rat) then none else some (.number (truncate v))
  | .signed bits, .number v =>
      if v < ((-2 ^ (bits - 1) : Int) : Rat) ∨ v > ((2 ^ (bits - 1) - 1 : Int) : Rat) then none
      else some (.number (truncate v))
  | .choice count toStr, j =>
      (enumFromJson undefined count toStr j).map fun code => .number code.toNat
  | _, _ => none

def patchedField (kind : FieldKind) (obj : Json) (key : String) (old : FieldValue) :
    Option FieldValue :=
  patchField obj key old (readField undefined kind)

theorem map_patchField {V W : Type} (obj : Json) (key : String) (dst : V) (read : Json → Option V)
    (view : V → W) :
    (patchField obj key dst read).map view =
      patchField obj key (view dst) fun j => (read j).map view := by
  unfold patchField
  cases cJsonGetObjectItemCaseSensitive obj key with
  | none => rfl
  | some j => cases j <;> rfl

theorem patchedField_text (obj : Json) (key : String) (dst : Name) :
    patchedField undefined .text obj key (.text dst) = (patchString obj key dst).map .text := by
  rw [patchString, map_patchField, patchedField]
  congr 1
  funext j
  cases j with
  | string s =>
      simp only [readField]
      split_ifs <;> rfl
  | _ => rfl

theorem patchedField_flag (obj : Json) (key : String) (dst : Bool) :
    patchedField undefined .flag obj key (.flag dst) = (patchBool obj key dst).map .flag := by
  rw [patchBool, map_patchField, patchedField]
  congr 1
  funext j
  cases j <;> rfl

theorem patchedField_choice (count : UInt32) (toStr : UInt32 → Option String) (obj : Json)
    (key : String) (dst : UInt32) :
    patchedField undefined (.choice count toStr) obj key (.number dst.toNat) =
      (patchEnum obj key dst (enumFromJson undefined count toStr)).map fun code =>
        .number code.toNat := by
  rw [patchEnum, map_patchField, patchedField]
  congr 1

/-- A number that passes the range check of an unsigned patcher is stored unchanged
in a cell that is wide enough. -/
theorem patchedField_unsigned {bits : Nat} {maxValue : UInt32} (obj : Json) (key : String)
    (dst : UInt32) (store : UInt32 → Nat) (limit : (maxValue.toNat : Int) = 2 ^ bits - 1)
    (stores : ∀ v : UInt32, v.toNat < 2 ^ bits → store v = v.toNat) :
    patchedField undefined (.unsigned bits) obj key (.number (store dst)) =
      (patchUint obj key dst maxValue).map fun v => .number (store v) := by
  rw [patchUint, map_patchField, patchedField]
  congr 1
  funext j
  cases j with
  | number v =>
      simp only [readField, ← limit, Int.cast_natCast]
      split_ifs with outside
      · rfl
      · simp only [not_or, not_lt, gt_iff_lt] at outside
        have low := @le_truncate v 0 outside.1
        have high := @truncate_le v maxValue.toNat (by exact_mod_cast outside.2)
        have size := maxValue.toNat_lt
        have kept : (UInt32.ofNat (truncate v).toNat).toNat = (truncate v).toNat := by
          rw [UInt32.toNat_ofNat']
          omega
        have fits : (truncate v).toNat < 2 ^ bits := by
          rw [Int.toNat_lt low]
          push_cast
          omega
        rw [Option.map_some, stores _ (by rwa [kept]), kept]
        simp [low]
  | _ => rfl

theorem patchedField_signed {bits : Nat} {minValue maxValue : Int32} (obj : Json) (key : String)
    (dst : Int32) (store : Int32 → Int) (lower : minValue.toInt = -2 ^ (bits - 1))
    (upper : maxValue.toInt = 2 ^ (bits - 1) - 1)
    (stores : ∀ v : Int32, minValue.toInt ≤ v.toInt → v.toInt ≤ maxValue.toInt →
      store v = v.toInt) :
    patchedField undefined (.signed bits) obj key (.number (store dst)) =
      (patchInt obj key dst minValue maxValue).map fun v => .number (store v) := by
  rw [patchInt, map_patchField, patchedField]
  congr 1
  funext j
  cases j with
  | number v =>
      simp only [readField, ← lower, ← upper]
      split_ifs with outside
      · rfl
      · simp only [not_or, not_lt, gt_iff_lt] at outside
        have low := le_truncate outside.1
        have high := truncate_le outside.2
        have kept : (Int32.ofInt (truncate v)).toInt = truncate v :=
          Int32.toInt_ofInt_of_le (le_trans minValue.le_toInt low)
            (lt_of_le_of_lt high maxValue.toInt_lt)
        rw [Option.map_some, stores _ (by rwa [kept]) (by rwa [kept]), kept]
  | _ => rfl

theorem patchedField_uint8 (obj : Json) (key : String) (dst : UInt8) :
    patchedField undefined (.unsigned 8) obj key (.number dst.toNat) =
      (patchUint obj key dst.toUInt32 uint8Limit).map fun v => .number v.toUInt8.toNat := by
  have stores : ∀ v : UInt32, v.toNat < 2 ^ 8 → v.toUInt8.toNat = v.toNat := by
    intro v small
    rw [UInt32.toNat_toUInt8, Nat.mod_eq_of_lt small]
  rw [← patchedField_unsigned undefined obj key dst.toUInt32 (fun v => v.toUInt8.toNat) rfl stores,
    UInt8.toUInt8_toUInt32]

theorem patchedField_uint16 (obj : Json) (key : String) (dst : UInt16) :
    patchedField undefined (.unsigned 16) obj key (.number dst.toNat) =
      (patchUint obj key dst.toUInt32 uint16Limit).map fun v => .number v.toUInt16.toNat := by
  have stores : ∀ v : UInt32, v.toNat < 2 ^ 16 → v.toUInt16.toNat = v.toNat := by
    intro v small
    rw [UInt32.toNat_toUInt16, Nat.mod_eq_of_lt small]
  rw [← patchedField_unsigned undefined obj key dst.toUInt32 (fun v => v.toUInt16.toNat) rfl
    stores, UInt16.toUInt16_toUInt32]

theorem patchedField_uint32 (obj : Json) (key : String) (dst : UInt32) :
    patchedField undefined (.unsigned 32) obj key (.number dst.toNat) =
      (patchUint obj key dst uint32Limit).map fun v => .number v.toNat :=
  patchedField_unsigned undefined obj key dst UInt32.toNat rfl fun _ _ => rfl

theorem patchedField_int16 (obj : Json) (key : String) (dst : Int16) :
    patchedField undefined (.signed 16) obj key (.number dst.toInt) =
      (patchInt obj key dst.toInt32 int16Min int16Max).map fun v => .number v.toInt16.toInt := by
  have stores : ∀ v : Int32, int16Min.toInt ≤ v.toInt → v.toInt ≤ int16Max.toInt →
      v.toInt16.toInt = v.toInt := by
    intro v low high
    have lower : int16Min.toInt = -2 ^ 15 := rfl
    have upper : int16Max.toInt = 2 ^ 15 - 1 := rfl
    rw [Int32.toInt_toInt16, Int.bmod_eq_of_le (by omega) (by omega)]
  rw [← @patchedField_signed undefined 16 _ _ obj key dst.toInt32 (fun v => v.toInt16.toInt) rfl rfl
    stores, Int16.toInt16_toInt32]

theorem patchedField_int32 (obj : Json) (key : String) (dst : Int32) :
    patchedField undefined (.signed 32) obj key (.number dst.toInt) =
      (patchInt obj key dst int32Min int32Max).map fun v => .number v.toInt :=
  patchedField_signed undefined obj key dst Int32.toInt rfl rfl fun _ _ _ => rfl

/-! Whole records. -/

def patchedFieldOf (domain : Domain) (obj : Json) (record : domain.Record) (field : domain.Field) :
    Option FieldValue :=
  patchedField undefined (fieldKind domain field) obj (fieldKey domain field)
    (fieldOf domain record field)

/-- A record patcher succeeds when every member it recognises is well formed. -/
theorem patchRecord_isSome {domain : Domain} {obj : Json} {old : domain.Record}
    (formed : ∀ field, (patchedFieldOf undefined domain obj old field).isSome = true) :
    (patchRecord undefined domain obj old).isSome = true := by
  rw [forall_field_iff] at formed
  cases domain <;>
    simp only [Domain.fields, List.forall_mem_cons, patchedFieldOf, fieldKind, fieldKey,
      fieldShape, diShape, doShape, tcShape, aiShape, aoShape, pcntShape, pwmShape, systemShape,
      fieldOf, diField, doField, tcField, aiField, aoField, pcntField, pwmField, systemField,
      patchedField_text, patchedField_flag, patchedField_choice, patchedField_uint8,
      patchedField_uint16, patchedField_uint32, patchedField_int16, patchedField_int32,
      Option.isSome_map] at formed <;>
    simp [patchRecord, patchDiRecord, patchDoRecord, patchTcRecord, patchAiRecord, patchAoRecord,
      patchPcntRecord, patchPwmRecord, patchSystemRecord, faultStateFromJson, diPolarityFromJson,
      doPolarityFromJson, tcTypeFromJson, tcUnitFromJson, aiInputModeFromJson,
      aoOutputModeFromJson, pcntModeFromJson, pcntEdgeFromJson, canBitrateFromJson,
      nmtStartupFromJson, Option.isSome_bind, formed]

/-- Every field of a patched record holds what its member reads as, or what it held. -/
theorem patchRecord_fields {domain : Domain} {obj : Json} {old new : domain.Record}
    (patched : patchRecord undefined domain obj old = some new) (field : domain.Field) :
    patchedFieldOf undefined domain obj old field = some (fieldOf domain new field) := by
  cases domain with
  | di =>
      simp only [patchRecord, patchDiRecord, Option.bind_eq_bind, Option.bind_eq_some_iff,
        Option.pure_def, Option.some.injEq] at patched
      obtain ⟨name, hname, id, hid, debounceMs, hdebounceMs, polarity, hpolarity, faultState,
        hfaultState, interruptEnabled, hinterruptEnabled, rfl⟩ := patched
      cases field <;>
        simp only [patchedFieldOf, fieldKind, fieldKey, fieldShape, diShape, fieldOf, diField,
          patchedField_text, patchedField_uint16, patchedField_choice, patchedField_flag,
          diPolarityFromJson, faultStateFromJson, Option.map_some, *] at *
  | do_ =>
      simp only [patchRecord, patchDoRecord, Option.bind_eq_bind, Option.bind_eq_some_iff,
        Option.pure_def, Option.some.injEq] at patched
      obtain ⟨name, hname, id, hid, polarity, hpolarity, faultState, hfaultState, rfl⟩ := patched
      cases field <;>
        simp only [patchedFieldOf, fieldKind, fieldKey, fieldShape, doShape, fieldOf, doField,
          patchedField_text, patchedField_uint16, patchedField_choice, doPolarityFromJson,
          faultStateFromJson, Option.map_some, *] at *
  | tc =>
      simp only [patchRecord, patchTcRecord, Option.bind_eq_bind, Option.bind_eq_some_iff,
        Option.pure_def, Option.some.injEq] at patched
      obtain ⟨name, hname, id, hid, tcType, htcType, unit, hunit, cjcEnabled, hcjcEnabled,
        filterMs, hfilterMs, faultState, hfaultState, faultValueC10, hfaultValueC10, rfl⟩ := patched
      cases field <;>
        simp only [patchedFieldOf, fieldKind, fieldKey, fieldShape, tcShape, fieldOf, tcField,
          patchedField_text, patchedField_uint16, patchedField_choice, patchedField_flag,
          patchedField_int16, tcTypeFromJson, tcUnitFromJson, faultStateFromJson, Option.map_some,
          *] at *
  | ai =>
      simp only [patchRecord, patchAiRecord, Option.bind_eq_bind, Option.bind_eq_some_iff,
        Option.pure_def, Option.some.injEq] at patched
      obtain ⟨name, hname, id, hid, inputMode, hinputMode, filterMs, hfilterMs, scaleNum,
        hscaleNum, scaleDen, hscaleDen, offset, hoffset, faultState, hfaultState, faultValue,
        hfaultValue, rfl⟩ := patched
      cases field <;>
        simp only [patchedFieldOf, fieldKind, fieldKey, fieldShape, aiShape, fieldOf, aiField,
          patchedField_text, patchedField_uint16, patchedField_choice, patchedField_int32,
          aiInputModeFromJson, faultStateFromJson, Option.map_some, *] at *
  | ao =>
      simp only [patchRecord, patchAoRecord, Option.bind_eq_bind, Option.bind_eq_some_iff,
        Option.pure_def, Option.some.injEq] at patched
      obtain ⟨name, hname, id, hid, outputMode, houtputMode, slewPerS, hslewPerS, scaleNum,
        hscaleNum, scaleDen, hscaleDen, offset, hoffset, faultState, hfaultState, faultValue,
        hfaultValue, rfl⟩ := patched
      cases field <;>
        simp only [patchedFieldOf, fieldKind, fieldKey, fieldShape, aoShape, fieldOf, aoField,
          patchedField_text, patchedField_uint16, patchedField_choice, patchedField_int32,
          aoOutputModeFromJson, faultStateFromJson, Option.map_some, *] at *
  | pcnt =>
      simp only [patchRecord, patchPcntRecord, Option.bind_eq_bind, Option.bind_eq_some_iff,
        Option.pure_def, Option.some.injEq] at patched
      obtain ⟨name, hname, id, hid, mode, hmode, edge, hedge, limit, hlimit, resetOnRead,
        hresetOnRead, rfl⟩ := patched
      cases field <;>
        simp only [patchedFieldOf, fieldKind, fieldKey, fieldShape, pcntShape, fieldOf,
          pcntField, patchedField_text, patchedField_uint16, patchedField_uint32,
          patchedField_choice, patchedField_flag, pcntModeFromJson, pcntEdgeFromJson,
          Option.map_some, *] at *
  | pwm =>
      simp only [patchRecord, patchPwmRecord, Option.bind_eq_bind, Option.bind_eq_some_iff,
        Option.pure_def, Option.some.injEq] at patched
      obtain ⟨name, hname, id, hid, periodUs, hperiodUs, dutyPermille, hdutyPermille, faultState,
        hfaultState, faultDutyPermille, hfaultDutyPermille, rfl⟩ := patched
      cases field <;>
        simp only [patchedFieldOf, fieldKind, fieldKey, fieldShape, pwmShape, fieldOf, pwmField,
          patchedField_text, patchedField_uint16, patchedField_uint32, patchedField_choice,
          faultStateFromJson, Option.map_some, *] at *
  | system =>
      simp only [patchRecord, patchSystemRecord, Option.bind_eq_bind, Option.bind_eq_some_iff,
        Option.pure_def, Option.some.injEq] at patched
      obtain ⟨canopenNodeId, hcanopenNodeId, canBitrate, hcanBitrate, heartbeatMs, hheartbeatMs,
        syncWindowUs, hsyncWindowUs, nmtStartup, hnmtStartup, producerEmcyCobId, hproducerEmcyCobId,
        rfl⟩ := patched
      cases field <;>
        simp only [patchedFieldOf, fieldKind, fieldKey, fieldShape, systemShape, fieldOf,
          systemField, patchedField_uint8, patchedField_uint16, patchedField_uint32,
          patchedField_choice, canBitrateFromJson, nmtStartupFromJson, Option.map_some, *] at *

/-- A patched record is exactly the record of the patched fields. -/
theorem patchRecord_eq_some_iff {domain : Domain} {obj : Json} {old new : domain.Record} :
    patchRecord undefined domain obj old = some new ↔
      ∀ field, patchedFieldOf undefined domain obj old field =
        some (fieldOf domain new field) := by
  constructor
  · exact patchRecord_fields undefined
  · intro fields
    obtain ⟨built, patched⟩ := Option.isSome_iff_exists.mp
      (patchRecord_isSome undefined fun field => by rw [fields field, Option.isSome_some])
    have same : built = new := by
      refine fieldOf_ext fun field => ?_
      have shown := patchRecord_fields undefined patched field
      rw [fields field] at shown
      exact (Option.some.inj shown).symm
    rw [patched, same]

theorem patchedField_again {kind : FieldKind} {obj : Json} {key : String} {old new : FieldValue}
    (patched : patchedField undefined kind obj key old = some new) :
    patchedField undefined kind obj key new = some new := by
  rw [patchedField, patchField] at patched ⊢
  cases found : cJsonGetObjectItemCaseSensitive obj key with
  | none => rfl
  | some j =>
      rw [found] at patched
      cases j <;> first | rfl | exact patched

/-- Patching a second time with the same members changes nothing. -/
theorem patchRecord_again {domain : Domain} {obj : Json} {old new : domain.Record}
    (patched : patchRecord undefined domain obj old = some new) :
    patchRecord undefined domain obj new = some new := by
  rw [patchRecord_eq_some_iff] at patched ⊢
  exact fun field => patchedField_again undefined (patched field)

end Patches

end ConfigWp
