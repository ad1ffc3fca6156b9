import ConfigWp.Application.CodecProperties

/-! The wire codecs the other way round. Decoding a byte string and encoding the record
again gives the bytes back, up to the terminator of the name and the values of the
boolean bytes. -/

set_option autoImplicit false

namespace ConfigWp

open LittleEndian

/-! The bytes a decoder does not keep. -/

namespace Domain

def named : Domain → Bool
  | .system => false
  | _ => true

/-- The place of the boolean byte on the wire. -/
def flagOffset : Domain → Option Nat
  | .di => some 22
  | .tc => some 20
  | .pcnt => some 24
  | _ => none

/-- What becomes of the wire byte at a place when it is decoded and encoded again. -/
def canonicalByte (domain : Domain) (place : Nat) (byte : UInt8) : UInt8 :=
  if domain.named ∧ place = configNameLen - 1 then 0
  else if domain.flagOffset = some place then (if byte = 0 then 0 else 1)
  else byte

def canonicalWire (domain : Domain) (bytes : List UInt8) : List UInt8 :=
  (bytes.take domain.wireSize).mapIdx domain.canonicalByte

end Domain

/-- The canonical form of the next bytes under the cursor, which stands at a place of the
record. -/
def canonicalFrom (domain : Domain) (place count : Nat) (p : List UInt8) : List UInt8 :=
  (p.take count).mapIdx fun i byte => domain.canonicalByte (place + i) byte

theorem canonicalFrom_add {domain : Domain} {place first rest : Nat} {p : List UInt8}
    (enough : first ≤ p.length) :
    canonicalFrom domain place (first + rest) p =
      canonicalFrom domain place first p ++
        canonicalFrom domain (place + first) rest (p.drop first) := by
  have size : (p.take first).length = first := List.length_take_of_le enough
  rw [canonicalFrom, List.take_add, List.mapIdx_append, size, canonicalFrom, canonicalFrom]
  simp only [Nat.add_assoc, Nat.add_comm first]

/-- The places whose byte is kept. -/
def Domain.keeps (domain : Domain) (place : Nat) : Bool :=
  !(domain.named && place == configNameLen - 1) && domain.flagOffset != some place

theorem canonicalFrom_kept {domain : Domain} {place count : Nat}
    (kept : ∀ i < count, domain.keeps (place + i) = true) (p : List UInt8) :
    canonicalFrom domain place count p = p.take count := by
  apply List.ext_getElem?
  intro i
  rw [canonicalFrom, List.getElem?_mapIdx, List.getElem?_take]
  by_cases inside : i < count
  · have same := kept i inside
    rw [Domain.keeps, Bool.and_eq_true, Bool.not_eq_true', bne_iff_ne, Bool.and_eq_false_iff,
      beq_eq_false_iff_ne] at same
    have byteKept : domain.canonicalByte (place + i) = id := by
      funext byte
      rw [Domain.canonicalByte, if_neg, if_neg same.2, id]
      rintro ⟨named, last⟩
      rcases same.1 with unnamed | other
      · exact absurd named (by simp [unnamed])
      · exact other last
    rw [if_pos inside, byteKept, Option.map_id, id]
  · rw [if_neg inside, Option.map_none]

/-- The bytes are the canonical form of what lies under the cursor, if that much does. -/
def Canonical (domain : Domain) (place count : Nat) (p wire : List UInt8) : Prop :=
  count ≤ p.length → wire = canonicalFrom domain place count p

theorem Canonical.append {domain : Domain} {place first rest : Nat} {p wire tail : List UInt8}
    (here : Canonical domain place first p wire)
    (there : Canonical domain (place + first) rest (p.drop first) tail) :
    Canonical domain place (first + rest) p (wire ++ tail) := by
  intro enough
  have room : first ≤ p.length := Nat.le_trans (Nat.le_add_right _ _) enough
  have left : rest ≤ (p.drop first).length := by
    rw [List.length_drop]
    omega
  rw [canonicalFrom_add room, ← here room, ← there left]

theorem canonical_kept {domain : Domain} {place count : Nat} {p wire : List UInt8}
    (kept : ∀ i < count, domain.keeps (place + i) = true)
    (same : count ≤ p.length → wire = p.take count) : Canonical domain place count p wire := by
  intro enough
  rw [canonicalFrom_kept kept, same enough]

/-! Cursors the other way round. -/

section Cursors

variable {domain : Domain} {place : Nat} {p : List UInt8}

theorem canonical_u8 (kept : ∀ i < 1, domain.keeps (place + i) = true) :
    Canonical domain place 1 p (putU8 (getU8 p).1) := by
  refine canonical_kept kept ?_
  intro enough
  match p, enough with
  | byte :: rest, _ => rfl

theorem canonical_u16 (kept : ∀ i < 2, domain.keeps (place + i) = true) :
    Canonical domain place 2 p (putU16 (getU16 p).1) :=
  canonical_kept kept write16_read16

theorem canonical_u32 (kept : ∀ i < 4, domain.keeps (place + i) = true) :
    Canonical domain place 4 p (putU32 (getU32 p).1) :=
  canonical_kept kept write32_read32

theorem canonical_i16 (kept : ∀ i < 2, domain.keeps (place + i) = true) :
    Canonical domain place 2 p (putI16 (getI16 p).1) := by
  rw [putI16, getI16, UInt16.toUInt16_toInt16]
  exact canonical_u16 kept

theorem canonical_i32 (kept : ∀ i < 4, domain.keeps (place + i) = true) :
    Canonical domain place 4 p (putI32 (getI32 p).1) := by
  rw [putI32, getI32, UInt32.toUInt32_toInt32]
  exact canonical_u32 kept

theorem canonical_enum (kept : ∀ i < 1, domain.keeps (place + i) = true) :
    Canonical domain place 1 p (putEnum (getEnum p).1) := by
  rw [putEnum, getEnum, UInt8.toUInt8_toUInt32]
  exact canonical_u8 kept

theorem canonical_bool (flag : domain.flagOffset = some place) (behind : configNameLen ≤ place) :
    Canonical domain place 1 p (putBool (getBool p).1) := by
  intro enough
  match p, enough with
  | byte :: rest, _ =>
      have unnamed : ¬(domain.named = true ∧ place = configNameLen - 1) := by
        rw [configNameLen] at *
        omega
      have shown : canonicalFrom domain place 1 (byte :: rest) =
          [domain.canonicalByte place byte] := rfl
      rw [shown, Domain.canonicalByte, if_neg unnamed, if_pos flag, putBool, putU8, getBool]
      by_cases zero : byte = 0
      · simp [getU8, zero]
      · simp [getU8, zero]

theorem canonical_name (named : domain.named = true) :
    Canonical domain 0 configNameLen p (putBytes (getName p).1.bytes) := by
  intro enough
  have kept : ∀ i < configNameLen - 1, domain.keeps (0 + i) = true := by
    cases domain <;> decide
  have front : (getName p).1.bytes = p.take (configNameLen - 1) ++ [0] := by
    have held : (Name.ofBytes (p.take configNameLen)).bytes = p.take configNameLen :=
      List.take_left' (List.length_take_of_le enough)
    have cut : (getName p).1.bytes =
        (Name.ofBytes (p.take configNameLen)).bytes.take (configNameLen - 1) ++ [0] := rfl
    rw [cut, held, List.take_take]
    rfl
  have last : canonicalFrom domain (0 + (configNameLen - 1)) 1 (p.drop (configNameLen - 1)) =
      [0] := by
    have room : configNameLen - 1 < p.length := Nat.lt_of_lt_of_le (by decide) enough
    rw [List.drop_eq_getElem_cons room]
    have shown : ∀ byte rest, canonicalFrom domain (0 + (configNameLen - 1)) 1 (byte :: rest) =
      [domain.canonicalByte (configNameLen - 1) byte] := fun _ _ => rfl
    rw [shown, Domain.canonicalByte, if_pos ⟨named, rfl⟩]
  have whole := @canonicalFrom_add domain 0 (configNameLen - 1) 1 p
    (Nat.le_trans (Nat.sub_le _ _) enough)
  rw [last, canonicalFrom_kept kept, Nat.sub_add_cancel (by decide)] at whole
  rw [whole, putBytes, front]

end Cursors

/-! Records the other way round. -/

/-- Encoding what was decoded gives the wire back in its canonical form, one field after the
other. -/
theorem put_get (domain : Domain) (p : List UInt8) :
    Canonical domain 0 domain.wireSize p (domain.put (domain.get p)) := by
  cases domain with
  | di =>
      simp only [Domain.put, putDi, List.append_assoc]
      exact (canonical_name rfl).append <| (canonical_u16 (by decide)).append <|
        (canonical_u16 (by decide)).append <| (canonical_enum (by decide)).append <|
        (canonical_enum (by decide)).append <| canonical_bool rfl (by decide)
  | do_ =>
      simp only [Domain.put, putDo, List.append_assoc]
      exact (canonical_name rfl).append <| (canonical_u16 (by decide)).append <|
        (canonical_enum (by decide)).append <| canonical_enum (by decide)
  | tc =>
      simp only [Domain.put, putTc, List.append_assoc]
      exact (canonical_name rfl).append <| (canonical_u16 (by decide)).append <|
        (canonical_enum (by decide)).append <| (canonical_enum (by decide)).append <|
        (canonical_bool rfl (by decide)).append <| (canonical_u16 (by decide)).append <|
        (canonical_enum (by decide)).append <| canonical_i16 (by decide)
  | ai =>
      simp only [Domain.put, putAi, List.append_assoc]
      exact (canonical_name rfl).append <| (canonical_u16 (by decide)).append <|
        (canonical_enum (by decide)).append <| (canonical_u16 (by decide)).append <|
        (canonical_i32 (by decide)).append <| (canonical_i32 (by decide)).append <|
        (canonical_i32 (by decide)).append <| (canonical_enum (by decide)).append <|
        canonical_i32 (by decide)
  | ao =>
      simp only [Domain.put, putAo, List.append_assoc]
      exact (canonical_name rfl).append <| (canonical_u16 (by decide)).append <|
        (canonical_enum (by decide)).append <| (canonical_u16 (by decide)).append <|
        (canonical_i32 (by decide)).append <| (canonical_i32 (by decide)).append <|
        (canonical_i32 (by decide)).append <| (canonical_enum (by decide)).append <|
        canonical_i32 (by decide)
  | pcnt =>
      simp only [Domain.put, putPcnt, List.append_assoc]
      exact (canonical_name rfl).append <| (canonical_u16 (by decide)).append <|
        (canonical_enum (by decide)).append <| (canonical_enum (by decide)).append <|
        (canonical_u32 (by decide)).append <| canonical_bool rfl (by decide)
  | pwm =>
      simp only [Domain.put, putPwm, List.append_assoc]
      exact (canonical_name rfl).append <| (canonical_u16 (by decide)).append <|
        (canonical_u32 (by decide)).append <| (canonical_u16 (by decide)).append <|
        (canonical_enum (by decide)).append <| canonical_u16 (by decide)
  | system =>
      simp only [Domain.put, putSystem, List.append_assoc]
      exact (canonical_u8 (by decide)).append <| (canonical_enum (by decide)).append <|
        (canonical_u16 (by decide)).append <| (canonical_u32 (by decide)).append <|
        (canonical_enum (by decide)).append <| canonical_u32 (by decide)

theorem put_get_canonical {domain : Domain} {bytes : List UInt8}
    (enough : domain.wireSize ≤ bytes.length) :
    domain.put (domain.get bytes) = domain.canonicalWire bytes := by
  rw [put_get domain bytes enough, canonicalFrom, Domain.canonicalWire]
  simp only [Nat.zero_add]

/-! The two directions together. -/

/-- A decoder with its output parameter. The decoders check the length before they store
anything, so a refused buffer leaves the record of the caller alone, and what is decoded
replaces it as a whole. -/
def configCodecDecodeOut (domain : Domain) (buf : List UInt8) (out : domain.Record) :
    Except TlvStatus Unit × domain.Record :=
  match configCodecDecode domain buf with
  | .error status => (.error status, out)
  | .ok record => (.ok (), record)

theorem configCodecEncode_wire {domain : Domain} (record : domain.Record) {buf : List UInt8}
    (room : domain.wireSize ≤ buf.length) :
    (configCodecEncode domain record buf).1 = .ok domain.wireSize ∧
      (configCodecEncode domain record buf).2.take domain.wireSize = domain.put record ∧
      (configCodecEncode domain record buf).2.drop domain.wireSize = buf.drop domain.wireSize := by
  have size := length_put domain record
  rw [configCodecEncode_eq, if_neg (Nat.not_lt.mpr room), Splice.overwrite_zero, size]
  exact ⟨rfl, List.take_left' size, List.drop_left' size⟩

/-- The codecs are inverse to each other: what survives the wire is read back, whatever the
buffer and whatever follows; what is read is written back in canonical form; and a buffer
that is too short is refused and left alone. -/
theorem configCodec_inverse (domain : Domain) :
    (∀ record buf, Wireable domain record → domain.wireSize ≤ buf.length →
      (configCodecEncode domain record buf).1 = .ok domain.wireSize ∧
      (configCodecEncode domain record buf).2.drop domain.wireSize =
        buf.drop domain.wireSize ∧
      ∀ trailing out, configCodecDecodeOut domain
        ((configCodecEncode domain record buf).2.take domain.wireSize ++ trailing) out =
          (.ok (), record)) ∧
    (∀ bytes buf out, domain.wireSize ≤ bytes.length → domain.wireSize ≤ buf.length →
      (configCodecDecodeOut domain bytes out).1 = .ok () ∧
      (configCodecEncode domain (configCodecDecodeOut domain bytes out).2 buf).1 =
        .ok domain.wireSize ∧
      (configCodecEncode domain (configCodecDecodeOut domain bytes out).2 buf).2.take
        domain.wireSize = domain.canonicalWire bytes) ∧
    (∀ record buf, buf.length < domain.wireSize →
      configCodecEncode domain record buf = (.error .errNoSpace, buf)) ∧
    ∀ bytes out, bytes.length < domain.wireSize →
      configCodecDecodeOut domain bytes out = (.error .errTruncated, out) := by
  refine ⟨?_, ?_, ?_, ?_⟩
  · intro record buf wireable room
    obtain ⟨succeeded, front, back⟩ := configCodecEncode_wire record room
    refine ⟨succeeded, back, ?_⟩
    intro trailing out
    have enough : ¬(domain.put record ++ trailing).length < domain.wireSize := by
      rw [List.length_append, length_put]
      exact Nat.not_lt.mpr (Nat.le_add_right _ _)
    rw [front, configCodecDecodeOut, configCodecDecode_eq, if_neg enough, get_put wireable]
  · intro bytes buf out enough room
    have decoded : configCodecDecodeOut domain bytes out = (.ok (), domain.get bytes) := by
      rw [configCodecDecodeOut, configCodecDecode_eq, if_neg (Nat.not_lt.mpr enough)]
    obtain ⟨succeeded, front, -⟩ := configCodecEncode_wire (domain.get bytes) room
    rw [decoded]
    exact ⟨rfl, succeeded, front.trans (put_get_canonical enough)⟩
  · intro record buf small
    rw [configCodecEncode_eq, if_pos small]
  · intro bytes out small
    rw [configCodecDecodeOut, configCodecDecode_eq, if_pos small]

end ConfigWp
