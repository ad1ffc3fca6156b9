import ConfigWp.Application.Codec
import Mathlib.Data.List.GetD

/-! Laws of the wire codecs: tags split into domain and index, what is put is
got back, every decoded record can be put again, and the bytes of a record
decide the fields the validators look at. -/

set_option autoImplicit false

namespace ConfigWp

open LittleEndian

/-! Tags. -/

theorem configCodecTag_make (domain index : UInt8) :
    configCodecTagIndex (configCodecMakeTag domain index) = index ∧
      configCodecTagDomain (configCodecMakeTag domain index) = domain := by
  have shape : configCodecMakeTag domain index = read16 [index, domain] :=
    UInt16.or_comm _ _
  have bytes := @write16_read16 [index, domain] (Nat.le_refl 2)
  rw [← shape] at bytes
  obtain ⟨low, high⟩ := List.cons.inj bytes
  exact ⟨low, (List.cons.inj high).1⟩

theorem configCodecMakeTag_split (tag : UInt16) :
    configCodecMakeTag (configCodecTagDomain tag) (configCodecTagIndex tag) = tag := by
  have whole := read16_write16 tag []
  rw [List.append_nil] at whole
  exact (UInt16.or_comm _ _).trans whole

theorem Domain.code_injective {left right : Domain} (same : left.code = right.code) :
    left = right := by
  cases left <;> cases right <;> first | rfl | exact absurd same (by decide)

theorem Domain.count_le (domain : Domain) : domain.count ≤ 16 := by cases domain <;> decide

theorem RecordKey.tagDomain_tag (key : RecordKey) :
    configCodecTagDomain key.tag = key.domain.code :=
  (configCodecTag_make _ _).2

theorem RecordKey.tagIndex_tag (key : RecordKey) :
    (configCodecTagIndex key.tag).toNat = key.index := by
  have small := key.domain.count_le
  have inside := key.index.isLt
  rw [RecordKey.tag, (configCodecTag_make _ _).1, UInt8.toNat_ofNat']
  omega

/-! Cursors. -/

@[simp] theorem getU8_putU8 (v : UInt8) (rest : List UInt8) : getU8 (putU8 v ++ rest) = (v, rest) :=
  rfl

@[simp] theorem getU16_putU16 (v : UInt16) (rest : List UInt8) :
    getU16 (putU16 v ++ rest) = (v, rest) := by
  simp only [getU16, putU16, read16_write16, drop_write16 _ _ 0, List.drop_zero]

@[simp] theorem getU32_putU32 (v : UInt32) (rest : List UInt8) :
    getU32 (putU32 v ++ rest) = (v, rest) := by
  simp only [getU32, putU32, read32_write32, drop_write32 _ _ 0, List.drop_zero]

@[simp] theorem getI16_putI16 (v : Int16) (rest : List UInt8) :
    getI16 (putI16 v ++ rest) = (v, rest) := by
  simp only [getI16, putI16, getU16_putU16, Int16.toInt16_toUInt16]

@[simp] theorem getI32_putI32 (v : Int32) (rest : List UInt8) :
    getI32 (putI32 v ++ rest) = (v, rest) := by
  simp only [getI32, putI32, getU32_putU32, Int32.toInt32_toUInt32]

@[simp] theorem getBool_putBool (v : Bool) (rest : List UInt8) :
    getBool (putBool v ++ rest) = (v, rest) := by
  cases v <;> rfl

theorem getEnum_putEnum {v : UInt32} (narrow : v < 256) (rest : List UInt8) :
    getEnum (putEnum v ++ rest) = (v, rest) := by
  have kept : v.toUInt8.toUInt32 = v := by
    rw [UInt32.lt_iff_toNat_lt] at narrow
    apply UInt32.toNat_inj.mp
    rw [UInt8.toNat_toUInt32, UInt32.toNat_toUInt8]
    exact Nat.mod_eq_of_lt narrow
  simp only [getEnum, putEnum, getU8_putU8, kept]

theorem getEnum_lt (p : List UInt8) : (getEnum p).1 < 256 := by
  rw [UInt32.lt_iff_toNat_lt, getEnum, UInt8.toNat_toUInt32]
  exact UInt8.toNat_lt _

theorem Name.ofBytes_bytes (name : Name) : Name.ofBytes name.bytes = name :=
  Name.ext (List.take_left' name.size_eq)

theorem Name.last_terminate (name : Name) : name.terminate.last = 0 := by
  have size : (name.bytes.take (configNameLen - 1)).length = configNameLen - 1 := by
    rw [List.length_take, name.size_eq]
    rfl
  have final := List.getD_append_right (name.bytes.take (configNameLen - 1)) [0] 0
    (configNameLen - 1) size.le
  rw [size, Nat.sub_self] at final
  exact final

theorem Name.terminate_of_last {name : Name} (terminated : name.last = 0) :
    name.terminate = name := by
  have size := name.size_eq
  have inside : configNameLen - 1 < name.bytes.length := by rw [size]; decide
  have final : name.bytes.drop (configNameLen - 1) = [0] := by
    rw [List.drop_eq_getElem_cons inside, List.drop_of_length_le (by rw [size]; decide)]
    rw [Name.last, List.getD_eq_getElem _ _ inside] at terminated
    rw [terminated]
  have whole := List.take_append_drop (configNameLen - 1) name.bytes
  rw [final] at whole
  exact Name.ext whole

theorem getName_putBytes {name : Name} (terminated : name.last = 0) (rest : List UInt8) :
    getName (putBytes name.bytes ++ rest) = (name, rest) := by
  rw [getName, putBytes, List.take_left' name.size_eq, List.drop_left' name.size_eq,
    name.ofBytes_bytes, Name.terminate_of_last terminated]

/-! Records. -/

/-- What survives the wire: a terminated name and enumeration values of one byte. -/
def Wireable : (domain : Domain) → domain.Record → Prop
  | .di, record => record.name.last = 0 ∧ record.polarity < 256 ∧ record.faultState < 256
  | .do_, record => record.name.last = 0 ∧ record.polarity < 256 ∧ record.faultState < 256
  | .tc, record =>
      record.name.last = 0 ∧ record.tcType < 256 ∧ record.unit < 256 ∧ record.faultState < 256
  | .ai, record => record.name.last = 0 ∧ record.inputMode < 256 ∧ record.faultState < 256
  | .ao, record => record.name.last = 0 ∧ record.outputMode < 256 ∧ record.faultState < 256
  | .pcnt, record => record.name.last = 0 ∧ record.mode < 256 ∧ record.edge < 256
  | .pwm, record => record.name.last = 0 ∧ record.faultState < 256
  | .system, record => record.canBitrate < 256 ∧ record.nmtStartup < 256

theorem length_put (domain : Domain) (record : domain.Record) :
    (domain.put record).length = domain.wireSize := by
  cases domain with
  | system => rfl
  | _ =>
      simp only [Domain.put, putDi, putDo, putTc, putAi, putAo, putPcnt, putPwm, putBytes, putU8,
        putU16, putU32, putI16, putI32, putBool, putEnum, List.length_append, record.name.size_eq,
        length_write16, length_write32, List.length_singleton]
      rfl

/-- A record that survives the wire is read back, whatever follows it. -/
theorem get_put {domain : Domain} {record : domain.Record} (wireable : Wireable domain record)
    (rest : List UInt8) : domain.get (domain.put record ++ rest) = record := by
  cases domain with
  | di =>
      obtain ⟨terminated, polarity, faultState⟩ := wireable
      simp only [Domain.get, Domain.put, putDi, getDi, List.append_assoc, getU16_putU16,
        getBool_putBool, getName_putBytes terminated, getEnum_putEnum polarity,
        getEnum_putEnum faultState]
  | do_ =>
      obtain ⟨terminated, polarity, faultState⟩ := wireable
      simp only [Domain.get, Domain.put, putDo, getDo, List.append_assoc, getU16_putU16,
        getName_putBytes terminated, getEnum_putEnum polarity, getEnum_putEnum faultState]
  | tc =>
      obtain ⟨terminated, tcType, unit, faultState⟩ := wireable
      simp only [Domain.get, Domain.put, putTc, getTc, List.append_assoc, getU16_putU16,
        getBool_putBool, getName_putBytes terminated, getEnum_putEnum tcType,
        getEnum_putEnum unit, getEnum_putEnum faultState]
      rw [← List.append_nil (putI16 record.faultValueC10)]
      simp
  | ai =>
      obtain ⟨terminated, inputMode, faultState⟩ := wireable
      simp only [Domain.get, Domain.put, putAi, getAi, List.append_assoc, getU16_putU16,
        getI32_putI32, getName_putBytes terminated, getEnum_putEnum inputMode,
        getEnum_putEnum faultState]
  | ao =>
      obtain ⟨terminated, outputMode, faultState⟩ := wireable
      simp only [Domain.get, Domain.put, putAo, getAo, List.append_assoc, getU16_putU16,
        getI32_putI32, getName_putBytes terminated, getEnum_putEnum outputMode,
        getEnum_putEnum faultState]
  | pcnt =>
      obtain ⟨terminated, mode, edge⟩ := wireable
      simp only [Domain.get, Domain.put, putPcnt, getPcnt, List.append_assoc, getU16_putU16,
        getU32_putU32, getBool_putBool, getName_putBytes terminated, getEnum_putEnum mode,
        getEnum_putEnum edge]
  | pwm =>
      obtain ⟨terminated, faultState⟩ := wireable
      simp only [Domain.get, Domain.put, putPwm, getPwm, List.append_assoc, getU16_putU16,
        getU32_putU32, getName_putBytes terminated, getEnum_putEnum faultState]
  | system =>
      obtain ⟨canBitrate, nmtStartup⟩ := wireable
      simp only [Domain.get, Domain.put, putSystem, getSystem, List.append_assoc, getU8_putU8,
        getU16_putU16, getU32_putU32, getEnum_putEnum canBitrate, getEnum_putEnum nmtStartup]

theorem wireable_get (domain : Domain) (p : List UInt8) : Wireable domain (domain.get p) := by
  have terminated := fun q => Name.last_terminate (Name.ofBytes (q : List UInt8))
  cases domain with
  | system => exact ⟨getEnum_lt _, getEnum_lt _⟩
  | pwm => exact ⟨terminated _, getEnum_lt _⟩
  | tc => exact ⟨terminated _, getEnum_lt _, getEnum_lt _, getEnum_lt _⟩
  | _ => exact ⟨terminated _, getEnum_lt _, getEnum_lt _⟩

theorem wireable_default (domain : Domain) : Wireable domain domain.default := by
  cases domain <;> simp only [Wireable] <;> decide

/-! The codecs themselves. -/

theorem configCodecEncode_eq (domain : Domain) (record : domain.Record) (buf : List UInt8) :
    configCodecEncode domain record buf =
      if buf.length < domain.wireSize then (.error .errNoSpace, buf)
      else (.ok domain.wireSize, Splice.overwrite buf 0 (domain.put record)) := by
  have frame : configCodecEncode domain record buf =
      encodeWith domain.wireSize (domain.put record) buf := by cases domain <;> rfl
  rw [frame, encodeWith, checkEncode]
  split_ifs <;> rfl

theorem configCodecDecode_eq (domain : Domain) (buf : List UInt8) :
    configCodecDecode domain buf =
      if buf.length < domain.wireSize then .error .errTruncated else .ok (domain.get buf) := by
  have frame : configCodecDecode domain buf = decodeWith domain.wireSize domain.get buf := by
    cases domain <;> rfl
  rw [frame, decodeWith, checkDecode]
  split_ifs <;> rfl

end ConfigWp
