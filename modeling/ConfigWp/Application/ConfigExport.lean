import ConfigWp.Application.ConfigJson

/-! The export half of `config_json.c`. Objects are built by appending members; every
allocation succeeds. The printer of the JSON library is a parameter. -/

set_option autoImplicit false

namespace ConfigWp

/-! Members. -/

abbrev Members : Type := List (List UInt8 × Json)

def addNumberToObject (o : Members) (name : String) (number : Rat) : Members :=
  o ++ [(ascii name, .number number)]

/-- A NULL string adds no member. -/
def addStringToObject (o : Members) (name : String) (string : Option (List UInt8)) : Members :=
  o ++ (string.map fun chars => (ascii name, Json.string chars)).toList

def addBoolToObject (o : Members) (name : String) (boolean : Bool) : Members :=
  o ++ [(ascii name, .bool boolean)]

/-! Builders. -/

def buildDi (channel : UInt8) (di : DiConfig) : Json :=
  let o := addNumberToObject [] "channel" channel.toNat
  let o := addStringToObject o "name" (some (cString di.name.bytes))
  let o := addNumberToObject o "id" di.id.toNat
  let o := addNumberToObject o "debounce_ms" di.debounceMs.toNat
  let o := addStringToObject o "polarity" ((diPolarityToStr di.polarity).map ascii)
  let o := addStringToObject o "fault_state" ((faultStateToStr di.faultState).map ascii)
  let o := addBoolToObject o "interrupt_enabled" di.interruptEnabled
  .object o

def buildDo (channel : UInt8) (d : DoConfig) : Json :=
  let o := addNumberToObject [] "channel" channel.toNat
  let o := addStringToObject o "name" (some (cString d.name.bytes))
  let o := addNumberToObject o "id" d.id.toNat
  let o := addStringToObject o "polarity" ((doPolarityToStr d.polarity).map ascii)
  let o := addStringToObject o "fault_state" ((faultStateToStr d.faultState).map ascii)
  .object o

def buildTc (channel : UInt8) (t : TcConfig) : Json :=
  let o := addNumberToObject [] "channel" channel.toNat
  let o := addStringToObject o "name" (some (cString t.name.bytes))
  let o := addNumberToObject o "id" t.id.toNat
  let o := addStringToObject o "tc_type" ((tcTypeToStr t.tcType).map ascii)
  let o := addStringToObject o "unit" ((tcUnitToStr t.unit).map ascii)
  let o := addBoolToObject o "cjc_enabled" t.cjcEnabled
  let o := addNumberToObject o "filter_ms" t.filterMs.toNat
  let o := addStringToObject o "fault_state" ((faultStateToStr t.faultState).map ascii)
  let o := addNumberToObject o "fault_value_c10" t.faultValueC10.toInt
  .object o

def buildAi (channel : UInt8) (a : AiConfig) : Json :=
  let o := addNumberToObject [] "channel" channel.toNat
  let o := addStringToObject o "name" (some (cString a.name.bytes))
  let o := addNumberToObject o "id" a.id.toNat
  let o := addStringToObject o "input_mode" ((aiInputModeToStr a.inputMode).map ascii)
  let o := addNumberToObject o "filter_ms" a.filterMs.toNat
  let o := addNumberToObject o "scale_num" a.scaleNum.toInt
  let o := addNumberToObject o "scale_den" a.scaleDen.toInt
  let o := addNumberToObject o "offset" a.offset.toInt
  let o := addStringToObject o "fault_state" ((faultStateToStr a.faultState).map ascii)
  let o := addNumberToObject o "fault_value" a.faultValue.toInt
  .object o

def buildAo (channel : UInt8) (a : AoConfig) : Json :=
  let o := addNumberToObject [] "channel" channel.toNat
  let o := addStringToObject o "name" (some (cString a.name.bytes))
  let o := addNumberToObject o "id" a.id.toNat
  let o := addStringToObject o "output_mode" ((aoOutputModeToStr a.outputMode).map ascii)
  let o := addNumberToObject o "slew_per_s" a.slewPerS.toNat
  let o := addNumberToObject o "scale_num" a.scaleNum.toInt
  let o := addNumberToObject o "scale_den" a.scaleDen.toInt
  let o := addNumberToObject o "offset" a.offset.toInt
  let o := addStringToObject o "fault_state" ((faultStateToStr a.faultState).map ascii)
  let o := addNumberToObject o "fault_value" a.faultValue.toInt
  .object o

def buildPcnt (channel : UInt8) (p : PcntConfig) : Json :=
  let o := addNumberToObject [] "channel" channel.toNat
  let o := addStringToObject o "name" (some (cString p.name.bytes))
  let o := addNumberToObject o "id" p.id.toNat
  let o := addStringToObject o "mode" ((pcntModeToStr p.mode).map ascii)
  let o := addStringToObject o "edge" ((pcntEdgeToStr p.edge).map ascii)
  let o := addNumberToObject o "limit" p.limit.toNat
  let o := addBoolToObject o "reset_on_read" p.resetOnRead
  .object o

def buildPwm (channel : UInt8) (p : PwmConfig) : Json :=
  let o := addNumberToObject [] "channel" channel.toNat
  let o := addStringToObject o "name" (some (cString p.name.bytes))
  let o := addNumberToObject o "id" p.id.toNat
  let o := addNumberToObject o "period_us" p.periodUs.toNat
  let o := addNumberToObject o "duty_permille" p.dutyPermille.toNat
  let o := addStringToObject o "fault_state" ((faultStateToStr p.faultState).map ascii)
  let o := addNumberToObject o "fault_duty_permille" p.faultDutyPermille.toNat
  .object o

def buildSystem (s : SystemConfig) : Json :=
  let o := addNumberToObject [] "canopen_node_id" s.canopenNodeId.toNat
  let o := addStringToObject o "can_bitrate" ((canBitrateToStr s.canBitrate).map ascii)
  let o := addNumberToObject o "heartbeat_ms" s.heartbeatMs.toNat
  let o := addNumberToObject o "sync_window_us" s.syncWindowUs.toNat
  let o := addStringToObject o "nmt_startup" ((nmtStartupToStr s.nmtStartup).map ascii)
  let o := addNumberToObject o "producer_emcy_cob_id" s.producerEmcyCobId.toNat
  .object o

/-! The document. -/

/-- `EMIT_ARRAY`. A channel whose getter fails is left out. -/
def emitArray (domain : Domain) (builder : UInt8 → domain.Record → Json) (m : Manager) : Json :=
  .array ((List.range domain.count).filterMap fun i =>
    match configGetRecord domain m (UInt8.ofNat i) with
    | .error _ => none
    | .ok v => some (builder (UInt8.ofNat i) v))

def configExportDocument (m : Manager) : Json :=
  let system :=
    match configGetSystem m with
    | .error _ => []
    | .ok s => [(ascii "system", buildSystem s)]
  .object ((ascii "format", .number 2) :: system ++
    [(ascii "di", emitArray .di buildDi m), (ascii "do", emitArray .do_ buildDo m),
      (ascii "tc", emitArray .tc buildTc m), (ascii "ai", emitArray .ai buildAi m),
      (ascii "ao", emitArray .ao buildAo m), (ascii "pcnt", emitArray .pcnt buildPcnt m),
      (ascii "pwm", emitArray .pwm buildPwm m)])

/-- `config_export_json` into a buffer of `cap` bytes; a NULL buffer is `none`. The result
is the string left in the buffer, without its final zero. -/
def configExportJson (print : Json → Option (List UInt8)) (buf : Option Nat) (m : Manager) :
    Except ConfigStatus (List UInt8) :=
  match buf with
  | none => .error .errInvalid
  | some cap =>
      if cap = 0 then .error .errInvalid
      else
        match print (configExportDocument m) with
        | none => .error .errInternal
        | some out =>
            if (cString out).length + 1 > cap then .error .errTooLarge else .ok (cString out)

end ConfigWp
