import ConfigWp.Application.ConfigRuns
import ConfigWp.Application.Json

/-! The import half of `config_json.c`: enumeration strings, the field patchers,
the record patchers that start from the cached value, the dispatch of array
entries by channel, and the walk over the document with its report. -/

set_option autoImplicit false

namespace ConfigWp

/-! Enumeration strings. -/

def faultStateToStr (v : UInt32) : Option String :=
  [(FaultState.hold.code, "HOLD"), (FaultState.low.code, "LOW"),
    (FaultState.high.code, "HIGH")].lookup v

def diPolarityToStr (v : UInt32) : Option String :=
  [(DiPolarity.activeHigh.code, "ACTIVE_HIGH"), (DiPolarity.activeLow.code, "ACTIVE_LOW")].lookup v

def doPolarityToStr (v : UInt32) : Option String :=
  [(DoPolarity.activeHigh.code, "ACTIVE_HIGH"), (DoPolarity.activeLow.code, "ACTIVE_LOW")].lookup v

def tcTypeToStr (v : UInt32) : Option String :=
  [(TcType.k.code, "K"), (TcType.j.code, "J"), (TcType.t.code, "T"), (TcType.n.code, "N"),
    (TcType.s.code, "S"), (TcType.r.code, "R"), (TcType.b.code, "B"), (TcType.e.code, "E")].lookup v

/-- The source has no string for kelvin. -/
def tcUnitToStr (v : UInt32) : Option String :=
  [(TcUnit.celsius.code, "CELSIUS"), (TcUnit.fahrenheit.code, "FAHRENHEIT")].lookup v

def aiInputModeToStr (v : UInt32) : Option String :=
  [(AiInputMode.voltage0To10V.code, "VOLTAGE_0_10V"),
    (AiInputMode.current4To20mA2W.code, "CURRENT_4_20MA_2W"),
    (AiInputMode.current4To20mA3W.code, "CURRENT_4_20MA_3W")].lookup v

def aoOutputModeToStr (v : UInt32) : Option String :=
  [(AoOutputMode.voltage0To10V.code, "VOLTAGE_0_10V"),
    (AoOutputMode.current4To20mA.code, "CURRENT_4_20MA")].lookup v

def pcntModeToStr (v : UInt32) : Option String :=
  [(PcntMode.counter.code, "COUNTER"), (PcntMode.frequency.code, "FREQUENCY")].lookup v

def pcntEdgeToStr (v : UInt32) : Option String :=
  [(PcntEdge.rising.code, "RISING"), (PcntEdge.falling.code, "FALLING"),
    (PcntEdge.both.code, "BOTH")].lookup v

def canBitrateToStr (v : UInt32) : Option String :=
  [(CanBitrate.rate125K.code, "125K"), (CanBitrate.rate250K.code, "250K"),
    (CanBitrate.rate500K.code, "500K"), (CanBitrate.rate1M.code, "1M")].lookup v

def nmtStartupToStr (v : UInt32) : Option String :=
  [(NmtStartup.wait.code, "WAIT"), (NmtStartup.autostart.code, "AUTOSTART")].lookup v

/-! What a conversion outside the range of `int` gives is a parameter of the
whole import. -/

section Import

variable (undefined : Rat → Int32)

/-- `enum_from_json`: a number below the count, or the string of a value below it. -/
def enumFromJson (count : UInt32) (toStr : UInt32 → Option String) : Json → Option UInt32
  | .number valuedouble =>
      let v := (toInt undefined valuedouble).toInt
      if v < 0 ∨ v ≥ count.toNat then none else some (UInt32.ofInt v)
  | .string s =>
      ((List.range count.toNat).map UInt32.ofNat).find? fun v => (toStr v).any (strEq s)
  | _ => none

def faultStateFromJson := enumFromJson undefined faultStateCount faultStateToStr
def diPolarityFromJson := enumFromJson undefined diPolarityCount diPolarityToStr
def doPolarityFromJson := enumFromJson undefined doPolarityCount doPolarityToStr
def tcTypeFromJson := enumFromJson undefined tcTypeCount tcTypeToStr
def tcUnitFromJson := enumFromJson undefined tcUnitCount tcUnitToStr
def aiInputModeFromJson := enumFromJson undefined aiInputModeCount aiInputModeToStr
def aoOutputModeFromJson := enumFromJson undefined aoOutputModeCount aoOutputModeToStr
def pcntModeFromJson := enumFromJson undefined pcntModeCount pcntModeToStr
def pcntEdgeFromJson := enumFromJson undefined pcntEdgeCount pcntEdgeToStr
def canBitrateFromJson := enumFromJson undefined canBitrateCount canBitrateToStr
def nmtStartupFromJson := enumFromJson undefined nmtStartupCount nmtStartupToStr

/-! Field patchers. A failed patcher is `none`; the callers then drop the record
they were patching, so what was patched before the failure is not kept here. -/

def patchField {V : Type} (obj : Json) (key : String) (dst : V) (read : Json → Option V) :
    Option V :=
  match cJsonGetObjectItemCaseSensitive obj key with
  | none => some dst
  | some .null => some dst
  | some j => read j

def patchString (obj : Json) (key : String) (dst : Name) : Option Name :=
  patchField obj key dst fun
    | .string valuestring =>
        if (cString valuestring).length ≥ configNameLen then none
        else some (.ofBytes (cString valuestring))
    | _ => none

def patchUint (obj : Json) (key : String) (dst maxValue : UInt32) : Option UInt32 :=
  patchField obj key dst fun
    | .number v =>
        if v < 0 ∨ v > (maxValue.toNat : Rat) then none
        else some (UInt32.ofNat (truncate v).toNat)
    | _ => none

def patchInt (obj : Json) (key : String) (dst minValue maxValue : Int32) : Option Int32 :=
  patchField obj key dst fun
    | .number v =>
        if v < (minValue.toInt : Rat) ∨ v > (maxValue.toInt : Rat) then none
        else some (Int32.ofInt (truncate v))
    | _ => none

def patchBool (obj : Json) (key : String) (dst : Bool) : Option Bool :=
  patchField obj key dst fun
    | .bool value => some value
    | _ => none

def patchEnum (obj : Json) (key : String) (dst : UInt32) (fromJson : Json → Option UInt32) :
    Option UInt32 :=
  patchField obj key dst fromJson

/-! Record patchers. -/

def uint8Limit : UInt32 := 0xFF
def uint16Limit : UInt32 := 0xFFFF
def uint32Limit : UInt32 := 0xFFFFFFFF
def int16Min : Int32 := -0x8000
def int16Max : Int32 := 0x7FFF
def int32Min : Int32 := -0x80000000
def int32Max : Int32 := 0x7FFFFFFF

def patchDiRecord (obj : Json) (di : DiConfig) : Option DiConfig := do
  let name ← patchString obj "name" di.name
  let id ← patchUint obj "id" di.id.toUInt32 uint16Limit
  let debounceMs ← patchUint obj "debounce_ms" di.debounceMs.toUInt32 uint16Limit
  let polarity ← patchEnum obj "polarity" di.polarity (diPolarityFromJson undefined)
  let faultState ← patchEnum obj "fault_state" di.faultState (faultStateFromJson undefined)
  let interruptEnabled ← patchBool obj "interrupt_enabled" di.interruptEnabled
  return { name, id := id.toUInt16, debounceMs := debounceMs.toUInt16, polarity, faultState,
           interruptEnabled }

def patchDoRecord (obj : Json) (d : DoConfig) : Option DoConfig := do
  let name ← patchString obj "name" d.name
  let id ← patchUint obj "id" d.id.toUInt32 uint16Limit
  let polarity ← patchEnum obj "polarity" d.polarity (doPolarityFromJson undefined)
  let faultState ← patchEnum obj "fault_state" d.faultState (faultStateFromJson undefined)
  return { name, id := id.toUInt16, polarity, faultState }

def patchTcRecord (obj : Json) (t : TcConfig) : Option TcConfig := do
  let name ← patchString obj "name" t.name
  let id ← patchUint obj "id" t.id.toUInt32 uint16Limit
  let tcType ← patchEnum obj "tc_type" t.tcType (tcTypeFromJson undefined)
  let unit ← patchEnum obj "unit" t.unit (tcUnitFromJson undefined)
  let cjcEnabled ← patchBool obj "cjc_enabled" t.cjcEnabled
  let filterMs ← patchUint obj "filter_ms" t.filterMs.toUInt32 uint16Limit
  let faultState ← patchEnum obj "fault_state" t.faultState (faultStateFromJson undefined)
  let faultValueC10 ← patchInt obj "fault_value_c10" t.faultValueC10.toInt32 int16Min int16Max
  return { name, id := id.toUInt16, tcType, unit, cjcEnabled, filterMs := filterMs.toUInt16,
           faultState, faultValueC10 := faultValueC10.toInt16 }

def patchAiRecord (obj : Json) (a : AiConfig) : Option AiConfig := do
  let name ← patchString obj "name" a.name
  let id ← patchUint obj "id" a.id.toUInt32 uint16Limit
  let inputMode ← patchEnum obj "input_mode" a.inputMode (aiInputModeFromJson undefined)
  let filterMs ← patchUint obj "filter_ms" a.filterMs.toUInt32 uint16Limit
  let scaleNum ← patchInt obj "scale_num" a.scaleNum int32Min int32Max
  let scaleDen ← patchInt obj "scale_den" a.scaleDen int32Min int32Max
  let offset ← patchInt obj "offset" a.offset int32Min int32Max
  let faultState ← patchEnum obj "fault_state" a.faultState (faultStateFromJson undefined)
  let faultValue ← patchInt obj "fault_value" a.faultValue int32Min int32Max
  return { name, id := id.toUInt16, inputMode, filterMs := filterMs.toUInt16, scaleNum, scaleDen,
           offset, faultState, faultValue }

def patchAoRecord (obj : Json) (a : AoConfig) : Option AoConfig := do
  let name ← patchString obj "name" a.name
  let id ← patchUint obj "id" a.id.toUInt32 uint16Limit
  let outputMode ← patchEnum obj "output_mode" a.outputMode (aoOutputModeFromJson undefined)
  let slewPerS ← patchUint obj "slew_per_s" a.slewPerS.toUInt32 uint16Limit
  let scaleNum ← patchInt obj "scale_num" a.scaleNum int32Min int32Max
  let scaleDen ← patchInt obj "scale_den" a.scaleDen int32Min int32Max
  let offset ← patchInt obj "offset" a.offset int32Min int32Max
  let faultState ← patchEnum obj "fault_state" a.faultState (faultStateFromJson undefined)
  let faultValue ← patchInt obj "fault_value" a.faultValue int32Min int32Max
  return { name, id := id.toUInt16, outputMode, slewPerS := slewPerS.toUInt16, scaleNum, scaleDen,
           offset, faultState, faultValue }

def patchPcntRecord (obj : Json) (p : PcntConfig) : Option PcntConfig := do
  let name ← patchString obj "name" p.name
  let id ← patchUint obj "id" p.id.toUInt32 uint16Limit
  let mode ← patchEnum obj "mode" p.mode (pcntModeFromJson undefined)
  let edge ← patchEnum obj "edge" p.edge (pcntEdgeFromJson undefined)
  let limit ← patchUint obj "limit" p.limit uint32Limit
  let resetOnRead ← patchBool obj "reset_on_read" p.resetOnRead
  return { name, id := id.toUInt16, mode, edge, limit, resetOnRead }

def patchPwmRecord (obj : Json) (p : PwmConfig) : Option PwmConfig := do
  let name ← patchString obj "name" p.name
  let id ← patchUint obj "id" p.id.toUInt32 uint16Limit
  let periodUs ← patchUint obj "period_us" p.periodUs uint32Limit
  let dutyPermille ← patchUint obj "duty_permille" p.dutyPermille.toUInt32 uint16Limit
  let faultState ← patchEnum obj "fault_state" p.faultState (faultStateFromJson undefined)
  let faultDutyPermille ←
    patchUint obj "fault_duty_permille" p.faultDutyPermille.toUInt32 uint16Limit
  return { name, id := id.toUInt16, periodUs, dutyPermille := dutyPermille.toUInt16, faultState,
           faultDutyPermille := faultDutyPermille.toUInt16 }

def patchSystemRecord (obj : Json) (s : SystemConfig) : Option SystemConfig := do
  let canopenNodeId ← patchUint obj "canopen_node_id" s.canopenNodeId.toUInt32 uint8Limit
  let canBitrate ← patchEnum obj "can_bitrate" s.canBitrate (canBitrateFromJson undefined)
  let heartbeatMs ← patchUint obj "heartbeat_ms" s.heartbeatMs.toUInt32 uint16Limit
  let syncWindowUs ← patchUint obj "sync_window_us" s.syncWindowUs uint32Limit
  let nmtStartup ← patchEnum obj "nmt_startup" s.nmtStartup (nmtStartupFromJson undefined)
  let producerEmcyCobId ←
    patchUint obj "producer_emcy_cob_id" s.producerEmcyCobId uint32Limit
  return { canopenNodeId := canopenNodeId.toUInt8, canBitrate, heartbeatMs := heartbeatMs.toUInt16,
           syncWindowUs, nmtStartup, producerEmcyCobId }

def patchRecord : (domain : Domain) → Json → domain.Record → Option domain.Record
  | .di => patchDiRecord undefined
  | .do_ => patchDoRecord undefined
  | .tc => patchTcRecord undefined
  | .ai => patchAiRecord undefined
  | .ao => patchAoRecord undefined
  | .pcnt => patchPcntRecord undefined
  | .pwm => patchPwmRecord undefined
  | .system => patchSystemRecord undefined

end Import

/-! The report. -/

def firstErrorBytes : Nat := 96

/-- `config_import_report_t`. The counters wrap as the `uint16_t` of the source do. -/
structure ImportReport where
  accepted : UInt16
  rejected : UInt16
  unknownKeys : UInt16
  malformed : UInt16
  firstError : String
  deriving DecidableEq, Repr

namespace ImportReport

def reset : ImportReport := ⟨0, 0, 0, 0, ""⟩

/-- `report_first_error`: the first message is kept, cut to the size of its buffer. -/
def noteFirstError (report : ImportReport) (text : String) : ImportReport :=
  if report.firstError ≠ "" then report
  else { report with firstError := String.ofList (text.toList.take (firstErrorBytes - 1)) }

def accept (report : ImportReport) : ImportReport :=
  { report with accepted := report.accepted + 1 }

def reject (report : ImportReport) : ImportReport :=
  { report with rejected := report.rejected + 1 }

def malform (report : ImportReport) : ImportReport :=
  { report with malformed := report.malformed + 1 }

def skipUnknown (report : ImportReport) : ImportReport :=
  { report with unknownKeys := report.unknownKeys + 1 }

end ImportReport

/-! Dispatch. -/

structure Import where
  manager : Manager
  report : ImportReport

namespace Import

def accept (state : Import) (manager : Manager) : Import := ⟨manager, state.report.accept⟩

def rejectSilently (state : Import) : Import := { state with report := state.report.reject }

def reject (state : Import) (text : String) : Import :=
  { state with report := (state.report.noteFirstError text).reject }

def malform (state : Import) (text : String) : Import :=
  { state with report := (state.report.noteFirstError text).malform }

end Import

section Dispatch

variable (undefined : Rat → Int32)

/-- The part of `APPLY_ARRAY` behind the duplicate check: patch the cached record of
a channel and set it. -/
def applyChannel (domain : Domain) (arrName : String) (idx : UInt8) (item : Json)
    (state : Import) : Import :=
  match configGetRecord domain state.manager idx with
  | .error _ => state.rejectSilently
  | .ok cached =>
      match patchRecord undefined domain item cached with
      | none => state.reject (arrName ++ "[ch=" ++ toString idx.toNat ++ "]: malformed field")
      | some record =>
          match configSetRecord domain state.manager idx (some record) with
          | (.error _, _) =>
              state.reject (arrName ++ "[ch=" ++ toString idx.toNat ++ "]: setter rejected")
          | (.ok (), manager) => state.accept manager

/-- One turn of the loop of `APPLY_ARRAY`; `seen` is its mask of channels met so far. -/
def applyEntry (domain : Domain) (arrName : String) (i : Nat) (item : Json)
    (seen : UInt32) (state : Import) : UInt32 × Import :=
  let place := arrName ++ "[" ++ toString i ++ "]: "
  match item with
  | .null => (seen, state)
  | .object _ =>
      match cJsonGetObjectItemCaseSensitive item "channel" with
      | some (.number chv) =>
          if chv < 0 ∨ chv ≥ (domain.count : Rat) then
            (seen, state.reject (place ++ "channel " ++
              toString (toInt undefined chv).toInt ++ " out of range"))
          else
            let idx := UInt8.ofNat (truncate chv).toNat
            if seen &&& (1 <<< idx.toUInt32) ≠ 0 then
              (seen, state.reject (place ++ "duplicate channel " ++ toString idx.toNat))
            else
              (seen ||| (1 <<< idx.toUInt32), applyChannel undefined domain arrName idx item state)
      | _ => (seen, state.reject (place ++ "missing or non-integer 'channel'"))
  | _ => (seen, state.malform (place ++ "not an object"))

def applyEntries (domain : Domain) (arrName : String) :
    Nat → List Json → UInt32 × Import → UInt32 × Import
  | _, [], state => state
  | i, item :: items, (seen, state) =>
      applyEntries domain arrName (i + 1) items
        (applyEntry undefined domain arrName i item seen state)

/-- `APPLY_ARRAY`. The array is looked up in the document by name, so a repeated
member applies the first one again. -/
def applyArray (domain : Domain) (arrName : String) (root : Json) (state : Import) : Import :=
  match cJsonGetObjectItemCaseSensitive root arrName with
  | none => state
  | some .null => state
  | some (.array items) => (applyEntries undefined domain arrName 0 items (0, state)).2
  | some _ => state.malform (arrName ++ ": not an array")

def importSystem (child : Json) (state : Import) : Import :=
  match child with
  | .object _ =>
      match configGetSystem state.manager with
      | .error _ => state.rejectSilently
      | .ok cached =>
          match patchSystemRecord undefined child cached with
          | none => state.reject "system: malformed field"
          | some record =>
              match configSetSystem state.manager (some record) with
              | (.error _, _) => state.reject "system: setter rejected"
              | (.ok (), manager) => state.accept manager
  | _ => state.malform "system: not an object"

def applyMember (root : Json) (state : Import) (member : List UInt8 × Json) : Import :=
  if strEq member.1 "format" then state
  else if strEq member.1 "system" then importSystem undefined member.2 state
  else if strEq member.1 "di" then applyArray undefined .di "di" root state
  else if strEq member.1 "do" then applyArray undefined .do_ "do" root state
  else if strEq member.1 "tc" then applyArray undefined .tc "tc" root state
  else if strEq member.1 "ai" then applyArray undefined .ai "ai" root state
  else if strEq member.1 "ao" then applyArray undefined .ao "ao" root state
  else if strEq member.1 "pcnt" then applyArray undefined .pcnt "pcnt" root state
  else if strEq member.1 "pwm" then applyArray undefined .pwm "pwm" root state
  else { state with report := state.report.skipUnknown }

/-- `config_import_json` from the parsed document on. -/
def configImportDocument (root : Json) (m : Manager) : Except ConfigStatus Unit × Import :=
  match root with
  | .object members =>
      (.ok (), members.foldl (applyMember undefined root) ⟨m, .reset⟩)
  | _ => (.error .errInvalid, ⟨m, .reset⟩)

/-- `config_import_json`; a NULL text is `none`, and `parse` is the parser of the
JSON library. -/
def configImportJson (parse : List UInt8 → Option Json) (json : Option (List UInt8))
    (m : Manager) : Except ConfigStatus Unit × Import :=
  match json with
  | none => (.error .errInvalid, ⟨m, .reset⟩)
  | some text =>
      match parse text with
      | none => (.error .errCodec, ⟨m, .reset⟩)
      | some root => configImportDocument undefined root m

end Dispatch

end ConfigWp
