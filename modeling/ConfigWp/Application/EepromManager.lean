import ConfigWp.Application.ConfigRuns

/-! The field requests of `eeprom_manager.c`: each loads the cached record, changes
one field and hands the whole record to the validating setter. -/

set_option autoImplicit false

namespace ConfigWp

open LittleEndian

/-! Field ids, in the order of their enumerations. -/

inductive DiParam where
  | name | id | debounceMs | polarity | faultState | interruptEnabled
  deriving DecidableEq, Repr

inductive DoParam where
  | name | id | polarity | faultState
  deriving DecidableEq, Repr

inductive TcParam where
  | name | id | tcType | unit | cjcEnabled | filterMs | faultState | faultValueC10
  deriving DecidableEq, Repr

inductive AiParam where
  | name | id | inputMode | filterMs | scaleNum | scaleDen | offset | faultState | faultValue
  deriving DecidableEq, Repr

inductive AoParam where
  | name | id | outputMode | faultState | faultValue
  deriving DecidableEq, Repr

inductive PcntParam where
  | name | id | mode | edge | limit | resetOnRead
  deriving DecidableEq, Repr

inductive PwmParam where
  | name | id | periodUs | dutyPermille | faultState | faultDutyPermille
  deriving DecidableEq, Repr

inductive SystemParam where
  | canopenNodeId | canBitrate | heartbeatMs | syncWindowUs | nmtStartup | producerEmcyCobId
  deriving DecidableEq, Repr

def DiParam.ofCode? (param : UInt16) : Option DiParam :=
  [.name, .id, .debounceMs, .polarity, .faultState, .interruptEnabled][param.toNat]?

def DoParam.ofCode? (param : UInt16) : Option DoParam :=
  [.name, .id, .polarity, .faultState][param.toNat]?

def TcParam.ofCode? (param : UInt16) : Option TcParam :=
  [.name, .id, .tcType, .unit, .cjcEnabled, .filterMs, .faultState, .faultValueC10][param.toNat]?

def AiParam.ofCode? (param : UInt16) : Option AiParam :=
  [.name, .id, .inputMode, .filterMs, .scaleNum, .scaleDen, .offset, .faultState,
    .faultValue][param.toNat]?

def AoParam.ofCode? (param : UInt16) : Option AoParam :=
  [.name, .id, .outputMode, .faultState, .faultValue][param.toNat]?

def PcntParam.ofCode? (param : UInt16) : Option PcntParam :=
  [.name, .id, .mode, .edge, .limit, .resetOnRead][param.toNat]?

def PwmParam.ofCode? (param : UInt16) : Option PwmParam :=
  [.name, .id, .periodUs, .dutyPermille, .faultState, .faultDutyPermille][param.toNat]?

def SystemParam.ofCode? (param : UInt16) : Option SystemParam :=
  [.canopenNodeId, .canBitrate, .heartbeatMs, .syncWindowUs, .nmtStartup,
    .producerEmcyCobId][param.toNat]?

/-- `eeprom_value_t`: the sixteen bytes of the union. The other arms read its first
bytes, little-endian as on the target. -/
structure EepromValue where
  s : Name
  deriving DecidableEq, Repr

namespace EepromValue

def u (v : EepromValue) : UInt32 := read32 v.s.bytes
def i (v : EepromValue) : Int32 := v.u.toInt32
def b (v : EepromValue) : Bool := v.s.bytes.getD 0 0 ≠ 0

def name (v : EepromValue) : Name := v.s.terminate

end EepromValue

/-! The field a request names, changed in a record. -/

def changeDi (v : EepromValue) (rec : DiConfig) : DiParam → DiConfig
  | .name => { rec with name := v.name }
  | .id => { rec with id := v.u.toUInt16 }
  | .debounceMs => { rec with debounceMs := v.u.toUInt16 }
  | .polarity => { rec with polarity := v.u }
  | .faultState => { rec with faultState := v.u }
  | .interruptEnabled => { rec with interruptEnabled := v.b }

def changeDo (v : EepromValue) (rec : DoConfig) : DoParam → DoConfig
  | .name => { rec with name := v.name }
  | .id => { rec with id := v.u.toUInt16 }
  | .polarity => { rec with polarity := v.u }
  | .faultState => { rec with faultState := v.u }

def changeTc (v : EepromValue) (rec : TcConfig) : TcParam → TcConfig
  | .name => { rec with name := v.name }
  | .id => { rec with id := v.u.toUInt16 }
  | .tcType => { rec with tcType := v.u }
  | .unit => { rec with unit := v.u }
  | .cjcEnabled => { rec with cjcEnabled := v.b }
  | .filterMs => { rec with filterMs := v.u.toUInt16 }
  | .faultState => { rec with faultState := v.u }
  | .faultValueC10 => { rec with faultValueC10 := v.i.toInt16 }

def changeAi (v : EepromValue) (rec : AiConfig) : AiParam → AiConfig
  | .name => { rec with name := v.name }
  | .id => { rec with id := v.u.toUInt16 }
  | .inputMode => { rec with inputMode := v.u }
  | .filterMs => { rec with filterMs := v.u.toUInt16 }
  | .scaleNum => { rec with scaleNum := v.i }
  | .scaleDen => { rec with scaleDen := v.i }
  | .offset => { rec with offset := v.i }
  | .faultState => { rec with faultState := v.u }
  | .faultValue => { rec with faultValue := v.i }

def changeAo (v : EepromValue) (rec : AoConfig) : AoParam → AoConfig
  | .name => { rec with name := v.name }
  | .id => { rec with id := v.u.toUInt16 }
  | .outputMode => { rec with outputMode := v.u }
  | .faultState => { rec with faultState := v.u }
  | .faultValue => { rec with faultValue := v.i }

def changePcnt (v : EepromValue) (rec : PcntConfig) : PcntParam → PcntConfig
  | .name => { rec with name := v.name }
  | .id => { rec with id := v.u.toUInt16 }
  | .mode => { rec with mode := v.u }
  | .edge => { rec with edge := v.u }
  | .limit => { rec with limit := v.u }
  | .resetOnRead => { rec with resetOnRead := v.b }

def changePwm (v : EepromValue) (rec : PwmConfig) : PwmParam → PwmConfig
  | .name => { rec with name := v.name }
  | .id => { rec with id := v.u.toUInt16 }
  | .periodUs => { rec with periodUs := v.u }
  | .dutyPermille => { rec with dutyPermille := v.u.toUInt16 }
  | .faultState => { rec with faultState := v.u }
  | .faultDutyPermille => { rec with faultDutyPermille := v.u.toUInt16 }

def changeSystem (v : EepromValue) (rec : SystemConfig) : SystemParam → SystemConfig
  | .canopenNodeId => { rec with canopenNodeId := v.u.toUInt8 }
  | .canBitrate => { rec with canBitrate := v.u }
  | .heartbeatMs => { rec with heartbeatMs := v.u.toUInt16 }
  | .syncWindowUs => { rec with syncWindowUs := v.u }
  | .nmtStartup => { rec with nmtStartup := v.u }
  | .producerEmcyCobId => { rec with producerEmcyCobId := v.u }

/-! The appliers. -/

def applyRecord (domain : Domain) (m : Manager) (idx : UInt8)
    (change : domain.Record → Option domain.Record) : Except ConfigStatus Unit × Manager :=
  match configGetRecord domain m idx with
  | .error status => (.error status, m)
  | .ok rec =>
      match change rec with
      | none => (.error .errInvalid, m)
      | some rec => configSetRecord domain m idx (some rec)

def applyDi (m : Manager) (idx : UInt8) (param : UInt16) (v : EepromValue) :=
  applyRecord .di m idx fun rec => (DiParam.ofCode? param).map (changeDi v rec)

def applyDo (m : Manager) (idx : UInt8) (param : UInt16) (v : EepromValue) :=
  applyRecord .do_ m idx fun rec => (DoParam.ofCode? param).map (changeDo v rec)

def applyTc (m : Manager) (idx : UInt8) (param : UInt16) (v : EepromValue) :=
  applyRecord .tc m idx fun rec => (TcParam.ofCode? param).map (changeTc v rec)

def applyAi (m : Manager) (idx : UInt8) (param : UInt16) (v : EepromValue) :=
  applyRecord .ai m idx fun rec => (AiParam.ofCode? param).map (changeAi v rec)

def applyAo (m : Manager) (idx : UInt8) (param : UInt16) (v : EepromValue) :=
  applyRecord .ao m idx fun rec => (AoParam.ofCode? param).map (changeAo v rec)

def applyPcnt (m : Manager) (idx : UInt8) (param : UInt16) (v : EepromValue) :=
  applyRecord .pcnt m idx fun rec => (PcntParam.ofCode? param).map (changePcnt v rec)

def applyPwm (m : Manager) (idx : UInt8) (param : UInt16) (v : EepromValue) :=
  applyRecord .pwm m idx fun rec => (PwmParam.ofCode? param).map (changePwm v rec)

def applySystem (m : Manager) (param : UInt16) (v : EepromValue) :
    Except ConfigStatus Unit × Manager :=
  match configGetSystem m with
  | .error status => (.error status, m)
  | .ok rec =>
      match (SystemParam.ofCode? param).map (changeSystem v rec) with
      | none => (.error .errInvalid, m)
      | some rec => configSetSystem m (some rec)

/-- `eeprom_req_t`: a field change, or a commit of what is in the cache. -/
inductive EepromRequest where
  | field (type : UInt32) (item : UInt8) (param : UInt16) (value : EepromValue)
  | commit
  deriving DecidableEq, Repr

/-- `eeprom_config_type_t` has the values of the record types in their order. -/
def eepromType? (type : UInt32) : Option Domain := Domain.all[type.toNat]?

def applyField (m : Manager) (type : UInt32) (item : UInt8) (param : UInt16)
    (value : EepromValue) : Except ConfigStatus Unit × Manager :=
  match eepromType? type with
  | some .di => applyDi m item param value
  | some .do_ => applyDo m item param value
  | some .tc => applyTc m item param value
  | some .ai => applyAi m item param value
  | some .ao => applyAo m item param value
  | some .pcnt => applyPcnt m item param value
  | some .pwm => applyPwm m item param value
  | some .system => applySystem m param value
  | none => (.error .errInvalid, m)

/-- `process_request`: whether the cache has something to save. -/
def processRequest (m : Manager) : EepromRequest → Bool × Manager
  | .commit => (true, m)
  | .field type item param value =>
      match applyField m type item param value with
      | (.ok (), m) => (true, m)
      | (.error _, m) => (false, m)

end ConfigWp
