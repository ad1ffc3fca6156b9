import ConfigWp.Application.CodecProperties
import ConfigWp.Application.SlotProperties
import ConfigWp.Application.TlvProperties

/-! The configuration manager of `config.c`: validators, the store of
unrecognised records, loading a payload into the cache, encoding the cache into
a payload, and the lifecycle calls. The module statics are one `Manager` value.
Every critical section is one function here, so the mutex itself does not
appear; whether it can be created is an input of `configInit`. -/

set_option autoImplicit false

namespace ConfigWp

open LittleEndian

/-- The errors of `config_status_t`; `CONFIG_OK` is the `ok` of `Except`. -/
inductive ConfigStatus where
  | errNotInitialised
  | errIndex
  | errInvalid
  | errStorage
  | errCodec
  | errTooLarge
  | errInternal
  deriving DecidableEq, Repr

def unknownBufBytes : Nat := 1024

structure UnknownStore where
  buf : List UInt8
  used : Nat
  size_eq : buf.length = unknownBufBytes
  used_le : used ≤ unknownBufBytes
  deriving DecidableEq, Repr

structure BlobBuf where
  bytes : List UInt8
  size_eq : bytes.length = slotPayloadMaxBytes
  deriving DecidableEq, Repr

structure Manager where
  cache : ConfigCache
  unknown : UnknownStore
  blobBuf : BlobBuf
  initialised : Bool
  deriving DecidableEq, Repr

def UnknownStore.clear (unknown : UnknownStore) : UnknownStore :=
  { unknown with used := 0, used_le := Nat.zero_le _ }

def loadDefaultsLocked (m : Manager) : Manager :=
  { m with cache := .defaults, unknown := m.unknown.clear }

/-! Validators. -/

def nameIsTerminated (name : Name) : Bool := name.last == 0

def validateDi (input : DiConfig) : Bool :=
  if !nameIsTerminated input.name then false
  else if input.polarity ≥ diPolarityCount then false
  else if input.faultState ≥ faultStateCount then false
  else true

def validateDo (input : DoConfig) : Bool :=
  if !nameIsTerminated input.name then false
  else if input.polarity ≥ doPolarityCount then false
  else if input.faultState ≥ faultStateCount then false
  else true

def validateTc (input : TcConfig) : Bool :=
  if !nameIsTerminated input.name then false
  else if input.tcType ≥ tcTypeCount then false
  else if input.unit ≥ tcUnitCount then false
  else if input.faultState ≥ faultStateCount then false
  else true

def validateAi (input : AiConfig) : Bool :=
  if !nameIsTerminated input.name then false
  else if input.inputMode ≥ aiInputModeCount then false
  else if input.faultState ≥ faultStateCount then false
  else if input.scaleDen = 0 then false
  else true

def validateAo (input : AoConfig) : Bool :=
  if !nameIsTerminated input.name then false
  else if input.outputMode ≥ aoOutputModeCount then false
  else if input.faultState ≥ faultStateCount then false
  else if input.scaleDen = 0 then false
  else true

def validatePcnt (input : PcntConfig) : Bool :=
  if !nameIsTerminated input.name then false
  else if input.mode ≥ pcntModeCount then false
  else if input.edge ≥ pcntEdgeCount then false
  else true

def validatePwm (input : PwmConfig) : Bool :=
  if !nameIsTerminated input.name then false
  else if input.periodUs = 0 then false
  else if input.dutyPermille > 1000 then false
  else if input.faultDutyPermille > 1000 then false
  else if input.faultState ≥ faultStateCount then false
  else true

def validateSystem (input : SystemConfig) : Bool :=
  if input.canopenNodeId < 1 ∨ input.canopenNodeId > 127 then false
  else if input.canBitrate ≥ canBitrateCount then false
  else if input.nmtStartup ≥ nmtStartupCount then false
  else if input.producerEmcyCobId ≠ 0 ∧ input.producerEmcyCobId < 0x81 then false
  else true

def validate : (domain : Domain) → domain.Record → Bool
  | .di => validateDi
  | .do_ => validateDo
  | .tc => validateTc
  | .ai => validateAi
  | .ao => validateAo
  | .pcnt => validatePcnt
  | .pwm => validatePwm
  | .system => validateSystem

/-! Unknown records. -/

namespace UnknownStore

def splice (unknown : UnknownStore) (w : TlvWriter)
    (same : w.cap = unknownBufBytes - unknown.used) : UnknownStore where
  buf := Splice.overwrite unknown.buf unknown.used w.buf
  used := unknown.used + tlvWriterSize w
  size_eq := by
    have bound := unknown.used_le
    rw [TlvWriter.cap] at same
    rw [Splice.length_overwrite (by rw [unknown.size_eq]; omega), unknown.size_eq]
  used_le := by
    have bound := unknown.used_le
    have inside := w.used_le
    rw [TlvWriter.cap] at same
    simp only [tlvWriterSize]
    omega

end UnknownStore

/-- `preserve_unknown_locked`: a record that does not fit is dropped. -/
def preserveUnknownLocked (unknown : UnknownStore) (tag : UInt16) (value : List UInt8) :
    UnknownStore :=
  if unknown.used + (tlvHeaderBytes + value.length) > unknownBufBytes then unknown
  else
    match emitted : tlvWriterEmit (tlvWriterInit (unknown.buf.drop unknown.used)) tag
        (.bytes value) with
    | (.ok (), w) => unknown.splice w (by
        have same := tlvWriterEmit_cap (tlvWriterInit (unknown.buf.drop unknown.used)) tag
          (.bytes value)
        rw [emitted] at same
        rw [same, TlvWriter.cap, tlvWriterInit, List.length_drop, unknown.size_eq])
    | (.error _, _) => unknown

/-! Loading a payload into the cache. -/

def decodeIoRecordLocked (m : Manager) (domain : Domain) (tag : UInt16) (value : List UInt8) :
    Except ConfigStatus Unit × Manager :=
  if inside : (configCodecTagIndex tag).toNat < domain.count then
    match configCodecDecode domain value with
    | .ok record => (.ok (), { m with cache := m.cache.set ⟨domain, ⟨_, inside⟩⟩ record })
    | .error _ => (.error .errCodec, m)
  else (.ok (), { m with unknown := preserveUnknownLocked m.unknown tag value })

/-- The system case: the index of the tag is not looked at. -/
def decodeSystemRecordLocked (m : Manager) (value : List UInt8) :
    Except ConfigStatus Unit × Manager :=
  match configCodecDecodeSystem value with
  | .ok record => (.ok (), { m with cache := m.cache.set ⟨.system, ⟨0, Nat.one_pos⟩⟩ record })
  | .error _ => (.error .errCodec, m)

def decodeIntoRecordLocked (m : Manager) (tag : UInt16) (value : List UInt8) :
    Except ConfigStatus Unit × Manager :=
  let domain := configCodecTagDomain tag
  if domain = configCodecDomainDi then decodeIoRecordLocked m .di tag value
  else if domain = configCodecDomainDo then decodeIoRecordLocked m .do_ tag value
  else if domain = configCodecDomainTc then decodeIoRecordLocked m .tc tag value
  else if domain = configCodecDomainAi then decodeIoRecordLocked m .ai tag value
  else if domain = configCodecDomainAo then decodeIoRecordLocked m .ao tag value
  else if domain = configCodecDomainPcnt then decodeIoRecordLocked m .pcnt tag value
  else if domain = configCodecDomainPwm then decodeIoRecordLocked m .pwm tag value
  else if domain = configCodecDomainSystem then decodeSystemRecordLocked m value
  else (.ok (), { m with unknown := preserveUnknownLocked m.unknown tag value })

/-- The loop of `decode_blob_locked`, at most `fuel` records of it. -/
def decodeBlobLoop : Nat → TlvIter → Manager → Except ConfigStatus Unit × Manager
  | 0, _, m => (.error .errInternal, m)
  | fuel + 1, it, m =>
      match tlvIterNext it with
      | .error .finished => (.ok (), m)
      | .error _ => (.error .errCodec, m)
      | .ok (tag, value, it) =>
          match decodeIntoRecordLocked m tag value with
          | (.ok (), m) => decodeBlobLoop fuel it m
          | (.error status, m) => (.error status, m)

/-- `decode_blob_locked`. A record takes at least one byte, so the loop ends
before the fuel does. -/
def decodeBlobLocked (m : Manager) (blob : List UInt8) : Except ConfigStatus Unit × Manager :=
  decodeBlobLoop (blob.length + 1) (tlvIterInit blob) m

/-! Encoding the cache into a payload. -/

def valueBufBytes : Nat := 64

def emitRecordLocked (w : TlvWriter) (key : RecordKey) (record : key.domain.Record) :
    Except ConfigStatus Unit × TlvWriter :=
  match configCodecEncode key.domain record (List.replicate valueBufBytes 0) with
  | (.error _, _) => (.error .errCodec, w)
  | (.ok valueSize, valueBuf) =>
      match tlvWriterEmit w key.tag (.bytes (valueBuf.take valueSize)) with
      | (.ok (), w) => (.ok (), w)
      | (.error .errNoSpace, w) => (.error .errTooLarge, w)
      | (.error _, w) => (.error .errCodec, w)

/-- The loops of `encode_cache_locked` over the known records, with their early
return. -/
def emitRecordsLocked (cache : ConfigCache) :
    List RecordKey → TlvWriter → Except ConfigStatus Unit × TlvWriter
  | [], w => (.ok (), w)
  | key :: keys, w =>
      match emitRecordLocked w key (cache.get key) with
      | (.ok (), w) => emitRecordsLocked cache keys w
      | (.error status, w) => (.error status, w)

/-- The byte walk of `encode_cache_locked` over the unknown records, at most
`fuel` records of it. -/
def reemitUnknownLoop (unknown : UnknownStore) :
    Nat → Nat → TlvWriter → Except ConfigStatus Unit × TlvWriter
  | 0, _, w => (.ok (), w)
  | fuel + 1, cursor, w =>
      if cursor ≥ unknown.used then (.ok (), w)
      else if cursor + tlvHeaderBytes > unknown.used then (.ok (), w)
      else
        let total := tlvHeaderBytes + (read16 (unknown.buf.drop (cursor + 2))).toNat
        if cursor + total > unknown.used then (.ok (), w)
        else
          match tlvWriterEmitRaw w (.bytes (Splice.window unknown.buf cursor total)) with
          | (.ok (), w) => reemitUnknownLoop unknown fuel (cursor + total) w
          | (.error .errNoSpace, w) => (.error .errTooLarge, w)
          | (.error _, w) => (.error .errCodec, w)

/-- The walk advances by at least one byte a turn, so `used` turns are enough. -/
def reemitUnknownLocked (unknown : UnknownStore) (w : TlvWriter) :
    Except ConfigStatus Unit × TlvWriter :=
  reemitUnknownLoop unknown unknown.used 0 w

/-- `encode_cache_locked`: the payload length, and the buffer it was written to. -/
def encodeCacheLocked (cache : ConfigCache) (unknown : UnknownStore) (buf : List UInt8) :
    Except ConfigStatus Nat × List UInt8 :=
  match emitRecordsLocked cache recordKeys (tlvWriterInit buf) with
  | (.error status, w) => (.error status, w.buf)
  | (.ok (), w) =>
      match reemitUnknownLocked unknown w with
      | (.error status, w) => (.error status, w.buf)
      | (.ok (), w) => (.ok (tlvWriterSize w), w.buf)

theorem emitRecordLocked_cap (w : TlvWriter) (key : RecordKey) (record : key.domain.Record) :
    (emitRecordLocked w key record).2.cap = w.cap := by
  simp only [emitRecordLocked]
  split
  · rfl
  · rename_i size buf encoded
    have kept := tlvWriterEmit_cap w key.tag (.bytes (buf.take size))
    split <;> simp_all

theorem emitRecordsLocked_cap (cache : ConfigCache) (keys : List RecordKey) (w : TlvWriter) :
    (emitRecordsLocked cache keys w).2.cap = w.cap := by
  induction keys generalizing w with
  | nil => rfl
  | cons key keys ih =>
      have kept := emitRecordLocked_cap w key (cache.get key)
      simp only [emitRecordsLocked]
      split
      · rename_i next emitted
        rw [ih, ← kept, emitted]
      · rename_i status next emitted
        rw [← kept, emitted]

theorem reemitUnknownLoop_cap (unknown : UnknownStore) (fuel cursor : Nat) (w : TlvWriter) :
    (reemitUnknownLoop unknown fuel cursor w).2.cap = w.cap := by
  induction fuel generalizing cursor w with
  | zero => rfl
  | succ fuel ih =>
      have kept := fun record => tlvWriterEmitRaw_cap w record
      simp only [reemitUnknownLoop]
      split_ifs
      · rfl
      · rfl
      · rfl
      · split
        · rename_i next emitted
          rw [ih, ← kept, emitted]
        · rename_i next emitted
          rw [← kept, emitted]
        · rename_i status next other emitted
          rw [← kept, emitted]

theorem encodeCacheLocked_length (cache : ConfigCache) (unknown : UnknownStore) (buf : List UInt8) :
    (encodeCacheLocked cache unknown buf).2.length = buf.length := by
  have known := emitRecordsLocked_cap cache recordKeys (tlvWriterInit buf)
  simp only [encodeCacheLocked]
  split
  · rename_i status w emitted
    rw [emitted] at known
    exact known
  · rename_i w emitted
    rw [emitted] at known
    have extra := reemitUnknownLoop_cap unknown unknown.used 0 w
    split
    · rename_i status next walked
      rw [reemitUnknownLocked] at walked
      rw [walked] at extra
      exact extra.trans known
    · rename_i next walked
      rw [reemitUnknownLocked] at walked
      rw [walked] at extra
      exact extra.trans known

/-! Lifecycle. -/

/-- `config_init`; `lockCreated` says whether the mutex could be created. -/
def configInit (lockCreated : Bool) (faults : SlotReadFaults) (storage : Storage) (m : Manager) :
    Except ConfigStatus Unit × Manager :=
  if m.initialised then (.ok (), m)
  else if !lockCreated then (.error .errInternal, m)
  else
    let m := loadDefaultsLocked m
    let picked := slotPickActive faults storage m.blobBuf.bytes
    let blobBuf : BlobBuf := ⟨picked.2, by
      rw [slotPickActive_length]
      exact m.blobBuf.size_eq⟩
    let m := { m with blobBuf }
    let (result, m) :=
      match picked.1 with
      | .ok (_, len) => decodeBlobLocked m (blobBuf.bytes.take len)
      | .error .errNoValid => (.ok (), m)
      | .error _ => (.error .errStorage, m)
    (result, { m with initialised := true })

def configDeinit (m : Manager) : Manager :=
  if !m.initialised then m else { m with initialised := false, unknown := m.unknown.clear }

def configResetDefaults (m : Manager) : Except ConfigStatus Unit × Manager :=
  if !m.initialised then (.error .errNotInitialised, m) else (.ok (), loadDefaultsLocked m)

def configSave (faults : SlotWriteFaults) (storage : Storage) (m : Manager) :
    Except ConfigStatus Unit × Storage × Manager :=
  if !m.initialised then (.error .errNotInitialised, storage, m)
  else
    let encoded := encodeCacheLocked m.cache m.unknown m.blobBuf.bytes
    let blobBuf : BlobBuf := ⟨encoded.2, by
      rw [encodeCacheLocked_length]
      exact m.blobBuf.size_eq⟩
    let m := { m with blobBuf }
    match encoded.1 with
    | .error status => (.error status, storage, m)
    | .ok blobLen =>
        match slotWrite faults storage (blobBuf.bytes.take blobLen) with
        | (.ok (), storage) => (.ok (), storage, m)
        | (.error _, storage) => (.error .errStorage, storage, m)

/-! Getters and setters. A NULL record pointer is `none`. -/

def configGetRecord (domain : Domain) (m : Manager) (idx : UInt8) :
    Except ConfigStatus domain.Record :=
  if !m.initialised then .error .errNotInitialised
  else if inside : idx.toNat < domain.count then .ok (m.cache.get ⟨domain, ⟨_, inside⟩⟩)
  else .error .errIndex

def configSetRecord (domain : Domain) (m : Manager) (idx : UInt8) (input : Option domain.Record) :
    Except ConfigStatus Unit × Manager :=
  if !m.initialised then (.error .errNotInitialised, m)
  else
    match input with
    | none => (.error .errInvalid, m)
    | some record =>
        if inside : idx.toNat < domain.count then
          if !validate domain record then (.error .errInvalid, m)
          else (.ok (), { m with cache := m.cache.set ⟨domain, ⟨_, inside⟩⟩ record })
        else (.error .errIndex, m)

def configGetDi := configGetRecord .di
def configGetDo := configGetRecord .do_
def configGetTc := configGetRecord .tc
def configGetAi := configGetRecord .ai
def configGetAo := configGetRecord .ao
def configGetPcnt := configGetRecord .pcnt
def configGetPwm := configGetRecord .pwm

def configSetDi := configSetRecord .di
def configSetDo := configSetRecord .do_
def configSetTc := configSetRecord .tc
def configSetAi := configSetRecord .ai
def configSetAo := configSetRecord .ao
def configSetPcnt := configSetRecord .pcnt
def configSetPwm := configSetRecord .pwm

def configGetSystem (m : Manager) : Except ConfigStatus SystemConfig :=
  if !m.initialised then .error .errNotInitialised else .ok m.cache.system

def configSetSystem (m : Manager) (input : Option SystemConfig) :
    Except ConfigStatus Unit × Manager :=
  if !m.initialised then (.error .errNotInitialised, m)
  else
    match input with
    | none => (.error .errInvalid, m)
    | some record =>
        if !validateSystem record then (.error .errInvalid, m)
        else (.ok (), { m with cache := { m.cache with system := record } })

end ConfigWp
