import ConfigWp.Application.Tlv
import ConfigWp.Application.Types

/-! The wire codecs of `config_codec.c`: field by field, little-endian, booleans
and enumerations narrowed to one byte. A cursor that writes is the list of bytes
written, a cursor that reads is the list of bytes left. -/

set_option autoImplicit false

namespace ConfigWp

open LittleEndian

def configCodecMakeTag (domain index : UInt8) : UInt16 :=
  (domain.toUInt16 <<< 8) ||| index.toUInt16

def configCodecTagDomain (tag : UInt16) : UInt8 := ((tag >>> 8) &&& 0xFF).toUInt8

def configCodecTagIndex (tag : UInt16) : UInt8 := (tag &&& 0xFF).toUInt8

def configCodecDomainDi : UInt8 := 0
def configCodecDomainDo : UInt8 := 1
def configCodecDomainTc : UInt8 := 2
def configCodecDomainAi : UInt8 := 3
def configCodecDomainAo : UInt8 := 4
def configCodecDomainPcnt : UInt8 := 5
def configCodecDomainPwm : UInt8 := 6
def configCodecDomainSystem : UInt8 := 0xF0

def configCodecSystemIndex : UInt8 := 0

def configCodecDiWireSize : Nat := 23
def configCodecDoWireSize : Nat := 20
def configCodecTcWireSize : Nat := 26
def configCodecAiWireSize : Nat := 38
def configCodecAoWireSize : Nat := 38
def configCodecPcntWireSize : Nat := 25
def configCodecPwmWireSize : Nat := 27
def configCodecSystemWireSize : Nat := 13

def putU8 (v : UInt8) : List UInt8 := [v]
def putU16 (v : UInt16) : List UInt8 := write16 v
def putU32 (v : UInt32) : List UInt8 := write32 v
def putI16 (v : Int16) : List UInt8 := putU16 v.toUInt16
def putI32 (v : Int32) : List UInt8 := putU32 v.toUInt32
def putBytes (src : List UInt8) : List UInt8 := src
def putBool (v : Bool) : List UInt8 := putU8 (if v then 1 else 0)
def putEnum (v : UInt32) : List UInt8 := putU8 v.toUInt8

def getU8 (p : List UInt8) : UInt8 × List UInt8 := (p.getD 0 0, p.drop 1)
def getU16 (p : List UInt8) : UInt16 × List UInt8 := (read16 p, p.drop 2)
def getU32 (p : List UInt8) : UInt32 × List UInt8 := (read32 p, p.drop 4)
def getI16 (p : List UInt8) : Int16 × List UInt8 := ((getU16 p).1.toInt16, (getU16 p).2)
def getI32 (p : List UInt8) : Int32 × List UInt8 := ((getU32 p).1.toInt32, (getU32 p).2)
def getBool (p : List UInt8) : Bool × List UInt8 := ((getU8 p).1 ≠ 0, (getU8 p).2)
def getEnum (p : List UInt8) : UInt32 × List UInt8 := ((getU8 p).1.toUInt32, (getU8 p).2)

/-- The name bytes with the terminator the decoders enforce. -/
def getName (p : List UInt8) : Name × List UInt8 :=
  ((Name.ofBytes (p.take configNameLen)).terminate, p.drop configNameLen)

def checkEncode (buf : List UInt8) (need : Nat) : Except TlvStatus Unit :=
  if buf.length < need then .error .errNoSpace else .ok ()

def checkDecode (buf : List UInt8) (need : Nat) : Except TlvStatus Unit :=
  if buf.length < need then .error .errTruncated else .ok ()

/-- The frame of every encoder: the check, then the bytes of the cursor at the
front of the buffer. -/
def encodeWith (need : Nat) (wire buf : List UInt8) : Except TlvStatus Nat × List UInt8 :=
  match checkEncode buf need with
  | .error status => (.error status, buf)
  | .ok () => (.ok need, Splice.overwrite buf 0 wire)

def decodeWith {R : Type} (need : Nat) (get : List UInt8 → R) (buf : List UInt8) :
    Except TlvStatus R :=
  match checkDecode buf need with
  | .error status => .error status
  | .ok () => .ok (get buf)

/-! DI -/

def putDi (input : DiConfig) : List UInt8 :=
  putBytes input.name.bytes ++ putU16 input.id ++ putU16 input.debounceMs ++
    putEnum input.polarity ++ putEnum input.faultState ++ putBool input.interruptEnabled

def getDi (p : List UInt8) : DiConfig :=
  let (name, p) := getName p
  let (id, p) := getU16 p
  let (debounceMs, p) := getU16 p
  let (polarity, p) := getEnum p
  let (faultState, p) := getEnum p
  let (interruptEnabled, _) := getBool p
  { name, id, debounceMs, polarity, faultState, interruptEnabled }

def configCodecEncodeDi (input : DiConfig) (buf : List UInt8) :
    Except TlvStatus Nat × List UInt8 :=
  encodeWith configCodecDiWireSize (putDi input) buf

def configCodecDecodeDi (buf : List UInt8) : Except TlvStatus DiConfig :=
  decodeWith configCodecDiWireSize getDi buf

/-! DO -/

def putDo (input : DoConfig) : List UInt8 :=
  putBytes input.name.bytes ++ putU16 input.id ++ putEnum input.polarity ++
    putEnum input.faultState

def getDo (p : List UInt8) : DoConfig :=
  let (name, p) := getName p
  let (id, p) := getU16 p
  let (polarity, p) := getEnum p
  let (faultState, _) := getEnum p
  { name, id, polarity, faultState }

def configCodecEncodeDo (input : DoConfig) (buf : List UInt8) :
    Except TlvStatus Nat × List UInt8 :=
  encodeWith configCodecDoWireSize (putDo input) buf

def configCodecDecodeDo (buf : List UInt8) : Except TlvStatus DoConfig :=
  decodeWith configCodecDoWireSize getDo buf

/-! TC -/

def putTc (input : TcConfig) : List UInt8 :=
  putBytes input.name.bytes ++ putU16 input.id ++ putEnum input.tcType ++ putEnum input.unit ++
    putBool input.cjcEnabled ++ putU16 input.filterMs ++ putEnum input.faultState ++
    putI16 input.faultValueC10

def getTc (p : List UInt8) : TcConfig :=
  let (name, p) := getName p
  let (id, p) := getU16 p
  let (tcType, p) := getEnum p
  let (unit, p) := getEnum p
  let (cjcEnabled, p) := getBool p
  let (filterMs, p) := getU16 p
  let (faultState, p) := getEnum p
  let (faultValueC10, _) := getI16 p
  { name, id, tcType, unit, cjcEnabled, filterMs, faultState, faultValueC10 }

def configCodecEncodeTc (input : TcConfig) (buf : List UInt8) :
    Except TlvStatus Nat × List UInt8 :=
  encodeWith configCodecTcWireSize (putTc input) buf

def configCodecDecodeTc (buf : List UInt8) : Except TlvStatus TcConfig :=
  decodeWith configCodecTcWireSize getTc buf

/-! AI -/

def putAi (input : AiConfig) : List UInt8 :=
  putBytes input.name.bytes ++ putU16 input.id ++ putEnum input.inputMode ++
    putU16 input.filterMs ++ putI32 input.scaleNum ++ putI32 input.scaleDen ++
    putI32 input.offset ++ putEnum input.faultState ++ putI32 input.faultValue

def getAi (p : List UInt8) : AiConfig :=
  let (name, p) := getName p
  let (id, p) := getU16 p
  let (inputMode, p) := getEnum p
  let (filterMs, p) := getU16 p
  let (scaleNum, p) := getI32 p
  let (scaleDen, p) := getI32 p
  let (offset, p) := getI32 p
  let (faultState, p) := getEnum p
  let (faultValue, _) := getI32 p
  { name, id, inputMode, filterMs, scaleNum, scaleDen, offset, faultState, faultValue }

def configCodecEncodeAi (input : AiConfig) (buf : List UInt8) :
    Except TlvStatus Nat × List UInt8 :=
  encodeWith configCodecAiWireSize (putAi input) buf

def configCodecDecodeAi (buf : List UInt8) : Except TlvStatus AiConfig :=
  decodeWith configCodecAiWireSize getAi buf

/-! AO -/

def putAo (input : AoConfig) : List UInt8 :=
  putBytes input.name.bytes ++ putU16 input.id ++ putEnum input.outputMode ++
    putU16 input.slewPerS ++ putI32 input.scaleNum ++ putI32 input.scaleDen ++
    putI32 input.offset ++ putEnum input.faultState ++ putI32 input.faultValue

def getAo (p : List UInt8) : AoConfig :=
  let (name, p) := getName p
  let (id, p) := getU16 p
  let (outputMode, p) := getEnum p
  let (slewPerS, p) := getU16 p
  let (scaleNum, p) := getI32 p
  let (scaleDen, p) := getI32 p
  let (offset, p) := getI32 p
  let (faultState, p) := getEnum p
  let (faultValue, _) := getI32 p
  { name, id, outputMode, slewPerS, scaleNum, scaleDen, offset, faultState, faultValue }

def configCodecEncodeAo (input : AoConfig) (buf : List UInt8) :
    Except TlvStatus Nat × List UInt8 :=
  encodeWith configCodecAoWireSize (putAo input) buf

def configCodecDecodeAo (buf : List UInt8) : Except TlvStatus AoConfig :=
  decodeWith configCodecAoWireSize getAo buf

/-! PCNT -/

def putPcnt (input : PcntConfig) : List UInt8 :=
  putBytes input.name.bytes ++ putU16 input.id ++ putEnum input.mode ++ putEnum input.edge ++
    putU32 input.limit ++ putBool input.resetOnRead

def getPcnt (p : List UInt8) : PcntConfig :=
  let (name, p) := getName p
  let (id, p) := getU16 p
  let (mode, p) := getEnum p
  let (edge, p) := getEnum p
  let (limit, p) := getU32 p
  let (resetOnRead, _) := getBool p
  { name, id, mode, edge, limit, resetOnRead }

def configCodecEncodePcnt (input : PcntConfig) (buf : List UInt8) :
    Except TlvStatus Nat × List UInt8 :=
  encodeWith configCodecPcntWireSize (putPcnt input) buf

def configCodecDecodePcnt (buf : List UInt8) : Except TlvStatus PcntConfig :=
  decodeWith configCodecPcntWireSize getPcnt buf

/-! PWM -/

def putPwm (input : PwmConfig) : List UInt8 :=
  putBytes input.name.bytes ++ putU16 input.id ++ putU32 input.periodUs ++
    putU16 input.dutyPermille ++ putEnum input.faultState ++ putU16 input.faultDutyPermille

def getPwm (p : List UInt8) : PwmConfig :=
  let (name, p) := getName p
  let (id, p) := getU16 p
  let (periodUs, p) := getU32 p
  let (dutyPermille, p) := getU16 p
  let (faultState, p) := getEnum p
  let (faultDutyPermille, _) := getU16 p
  { name, id, periodUs, dutyPermille, faultState, faultDutyPermille }

def configCodecEncodePwm (input : PwmConfig) (buf : List UInt8) :
    Except TlvStatus Nat × List UInt8 :=
  encodeWith configCodecPwmWireSize (putPwm input) buf

def configCodecDecodePwm (buf : List UInt8) : Except TlvStatus PwmConfig :=
  decodeWith configCodecPwmWireSize getPwm buf

/-! System -/

def putSystem (input : SystemConfig) : List UInt8 :=
  putU8 input.canopenNodeId ++ putEnum input.canBitrate ++ putU16 input.heartbeatMs ++
    putU32 input.syncWindowUs ++ putEnum input.nmtStartup ++ putU32 input.producerEmcyCobId

def getSystem (p : List UInt8) : SystemConfig :=
  let (canopenNodeId, p) := getU8 p
  let (canBitrate, p) := getEnum p
  let (heartbeatMs, p) := getU16 p
  let (syncWindowUs, p) := getU32 p
  let (nmtStartup, p) := getEnum p
  let (producerEmcyCobId, _) := getU32 p
  { canopenNodeId, canBitrate, heartbeatMs, syncWindowUs, nmtStartup, producerEmcyCobId }

def configCodecEncodeSystem (input : SystemConfig) (buf : List UInt8) :
    Except TlvStatus Nat × List UInt8 :=
  encodeWith configCodecSystemWireSize (putSystem input) buf

def configCodecDecodeSystem (buf : List UInt8) : Except TlvStatus SystemConfig :=
  decodeWith configCodecSystemWireSize getSystem buf

/-! The codecs as one family over the record types. -/

namespace Domain

def code : Domain → UInt8
  | .di => configCodecDomainDi
  | .do_ => configCodecDomainDo
  | .tc => configCodecDomainTc
  | .ai => configCodecDomainAi
  | .ao => configCodecDomainAo
  | .pcnt => configCodecDomainPcnt
  | .pwm => configCodecDomainPwm
  | .system => configCodecDomainSystem

def wireSize : Domain → Nat
  | .di => configCodecDiWireSize
  | .do_ => configCodecDoWireSize
  | .tc => configCodecTcWireSize
  | .ai => configCodecAiWireSize
  | .ao => configCodecAoWireSize
  | .pcnt => configCodecPcntWireSize
  | .pwm => configCodecPwmWireSize
  | .system => configCodecSystemWireSize

def put : (domain : Domain) → domain.Record → List UInt8
  | .di => putDi
  | .do_ => putDo
  | .tc => putTc
  | .ai => putAi
  | .ao => putAo
  | .pcnt => putPcnt
  | .pwm => putPwm
  | .system => putSystem

def get : (domain : Domain) → List UInt8 → domain.Record
  | .di => getDi
  | .do_ => getDo
  | .tc => getTc
  | .ai => getAi
  | .ao => getAo
  | .pcnt => getPcnt
  | .pwm => getPwm
  | .system => getSystem

end Domain

def configCodecEncode : (domain : Domain) → domain.Record → List UInt8 →
    Except TlvStatus Nat × List UInt8
  | .di => configCodecEncodeDi
  | .do_ => configCodecEncodeDo
  | .tc => configCodecEncodeTc
  | .ai => configCodecEncodeAi
  | .ao => configCodecEncodeAo
  | .pcnt => configCodecEncodePcnt
  | .pwm => configCodecEncodePwm
  | .system => configCodecEncodeSystem

def configCodecDecode : (domain : Domain) → List UInt8 → Except TlvStatus domain.Record
  | .di => configCodecDecodeDi
  | .do_ => configCodecDecodeDo
  | .tc => configCodecDecodeTc
  | .ai => configCodecDecodeAi
  | .ao => configCodecDecodeAo
  | .pcnt => configCodecDecodePcnt
  | .pwm => configCodecDecodePwm
  | .system => configCodecDecodeSystem

def RecordKey.tag (key : RecordKey) : UInt16 :=
  configCodecMakeTag key.domain.code (UInt8.ofNat key.index)

end ConfigWp
