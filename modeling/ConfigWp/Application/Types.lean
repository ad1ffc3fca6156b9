import Mathlib.Data.List.Basic

/-! The configuration records of `config_types.h`, the limits of
`config_limits.h`, the factory defaults of `config_defaults.c` and the record
cache of `config.c`. Enumeration fields are the 32-bit cells of the source, so
that a field can hold a value outside its enumeration. -/

set_option autoImplicit false

namespace ConfigWp

def configNameLen : Nat := 16
def configNumDi : Nat := 16
def configNumDo : Nat := 16
def configNumTc : Nat := 4
def configNumAi : Nat := 8
def configNumAo : Nat := 4
def configNumPcnt : Nat := 4
def configNumPwm : Nat := 4

structure Name where
  bytes : List UInt8
  size_eq : bytes.length = configNameLen
  deriving DecidableEq, Repr

namespace Name

@[ext] theorem ext {left right : Name} (same : left.bytes = right.bytes) : left = right := by
  cases left
  cases right
  simp_all

/-- A string initialiser: the characters, padded with zero bytes. -/
def ofBytes (bytes : List UInt8) : Name where
  bytes := (bytes ++ List.replicate configNameLen 0).take configNameLen
  size_eq := by
    rw [List.length_take, List.length_append, List.length_replicate]
    omega

def last (name : Name) : UInt8 := name.bytes.getD (configNameLen - 1) 0

def terminate (name : Name) : Name where
  bytes := name.bytes.take (configNameLen - 1) ++ [0]
  size_eq := by
    rw [List.length_append, List.length_take, name.size_eq]
    rfl

end Name

/-! Enumerations: the named values and the `_COUNT` bound the validators use. -/

inductive FaultState where
  | hold
  | low
  | high
  deriving DecidableEq, Repr

def FaultState.code : FaultState → UInt32
  | .hold => 0
  | .low => 1
  | .high => 2

def faultStateCount : UInt32 := 3

inductive DiPolarity where
  | activeHigh
  | activeLow
  deriving DecidableEq, Repr

def DiPolarity.code : DiPolarity → UInt32
  | .activeHigh => 0
  | .activeLow => 1

def diPolarityCount : UInt32 := 2

inductive DoPolarity where
  | activeHigh
  | activeLow
  deriving DecidableEq, Repr

def DoPolarity.code : DoPolarity → UInt32
  | .activeHigh => 0
  | .activeLow => 1

def doPolarityCount : UInt32 := 2

inductive TcType where
  | k
  | j
  | t
  | n
  | s
  | r
  | b
  | e
  deriving DecidableEq, Repr

def TcType.code : TcType → UInt32
  | .k => 0
  | .j => 1
  | .t => 2
  | .n => 3
  | .s => 4
  | .r => 5
  | .b => 6
  | .e => 7

def tcTypeCount : UInt32 := 8

inductive TcUnit where
  | celsius
  | fahrenheit
  | kelvin
  deriving DecidableEq, Repr

def TcUnit.code : TcUnit → UInt32
  | .celsius => 0
  | .fahrenheit => 1
  | .kelvin => 2

def tcUnitCount : UInt32 := 3

inductive AiInputMode where
  | voltage0To10V
  | current4To20mA2W
  | current4To20mA3W
  deriving DecidableEq, Repr

def AiInputMode.code : AiInputMode → UInt32
  | .voltage0To10V => 0
  | .current4To20mA2W => 1
  | .current4To20mA3W => 2

def aiInputModeCount : UInt32 := 3

inductive AoOutputMode where
  | voltage0To10V
  | current4To20mA
  deriving DecidableEq, Repr

def AoOutputMode.code : AoOutputMode → UInt32
  | .voltage0To10V => 0
  | .current4To20mA => 1

def aoOutputModeCount : UInt32 := 2

inductive PcntMode where
  | counter
  | frequency
  deriving DecidableEq, Repr

def PcntMode.code : PcntMode → UInt32
  | .counter => 0
  | .frequency => 1

def pcntModeCount : UInt32 := 2

inductive PcntEdge where
  | rising
  | falling
  | both
  deriving DecidableEq, Repr

def PcntEdge.code : PcntEdge → UInt32
  | .rising => 0
  | .falling => 1
  | .both => 2

def pcntEdgeCount : UInt32 := 3

inductive CanBitrate where
  | rate125K
  | rate250K
  | rate500K
  | rate1M
  deriving DecidableEq, Repr

def CanBitrate.code : CanBitrate → UInt32
  | .rate125K => 0
  | .rate250K => 1
  | .rate500K => 2
  | .rate1M => 3

def canBitrateCount : UInt32 := 4

inductive NmtStartup where
  | wait
  | autostart
  deriving DecidableEq, Repr

def NmtStartup.code : NmtStartup → UInt32
  | .wait => 0
  | .autostart => 1

def nmtStartupCount : UInt32 := 2

/-! Records. -/

structure DiConfig where
  name : Name
  id : UInt16
  debounceMs : UInt16
  polarity : UInt32
  faultState : UInt32
  interruptEnabled : Bool
  deriving DecidableEq, Repr

structure DoConfig where
  name : Name
  id : UInt16
  polarity : UInt32
  faultState : UInt32
  deriving DecidableEq, Repr

structure TcConfig where
  name : Name
  id : UInt16
  tcType : UInt32
  unit : UInt32
  cjcEnabled : Bool
  filterMs : UInt16
  faultState : UInt32
  faultValueC10 : Int16
  deriving DecidableEq, Repr

structure AiConfig where
  name : Name
  id : UInt16
  inputMode : UInt32
  filterMs : UInt16
  scaleNum : Int32
  scaleDen : Int32
  offset : Int32
  faultState : UInt32
  faultValue : Int32
  deriving DecidableEq, Repr

structure AoConfig where
  name : Name
  id : UInt16
  outputMode : UInt32
  slewPerS : UInt16
  scaleNum : Int32
  scaleDen : Int32
  offset : Int32
  faultState : UInt32
  faultValue : Int32
  deriving DecidableEq, Repr

structure PcntConfig where
  name : Name
  id : UInt16
  mode : UInt32
  edge : UInt32
  limit : UInt32
  resetOnRead : Bool
  deriving DecidableEq, Repr

structure PwmConfig where
  name : Name
  id : UInt16
  periodUs : UInt32
  dutyPermille : UInt16
  faultState : UInt32
  faultDutyPermille : UInt16
  deriving DecidableEq, Repr

structure SystemConfig where
  canopenNodeId : UInt8
  canBitrate : UInt32
  heartbeatMs : UInt16
  syncWindowUs : UInt32
  nmtStartup : UInt32
  producerEmcyCobId : UInt32
  deriving DecidableEq, Repr

/-! Factory defaults, one entry for every channel of a type. -/

def diDefault : DiConfig where
  name := .ofBytes []
  id := 0
  debounceMs := 10
  polarity := DiPolarity.activeHigh.code
  faultState := FaultState.hold.code
  interruptEnabled := false

def doDefault : DoConfig where
  name := .ofBytes []
  id := 0
  polarity := DoPolarity.activeHigh.code
  faultState := FaultState.low.code

def tcDefault : TcConfig where
  name := .ofBytes []
  id := 0
  tcType := TcType.k.code
  unit := TcUnit.celsius.code
  cjcEnabled := true
  filterMs := 100
  faultState := FaultState.hold.code
  faultValueC10 := 0

def aiDefault : AiConfig where
  name := .ofBytes []
  id := 0
  inputMode := AiInputMode.voltage0To10V.code
  filterMs := 10
  scaleNum := 1
  scaleDen := 1
  offset := 0
  faultState := FaultState.hold.code
  faultValue := 0

def aoDefault : AoConfig where
  name := .ofBytes []
  id := 0
  outputMode := AoOutputMode.voltage0To10V.code
  slewPerS := 0
  scaleNum := 1
  scaleDen := 1
  offset := 0
  faultState := FaultState.low.code
  faultValue := 0

def pcntDefault : PcntConfig where
  name := .ofBytes []
  id := 0
  mode := PcntMode.counter.code
  edge := PcntEdge.rising.code
  limit := 0
  resetOnRead := false

def pwmDefault : PwmConfig where
  name := .ofBytes []
  id := 0
  periodUs := 10000
  dutyPermille := 0
  faultState := FaultState.low.code
  faultDutyPermille := 0

def systemDefault : SystemConfig where
  canopenNodeId := 1
  canBitrate := CanBitrate.rate500K.code
  heartbeatMs := 1000
  syncWindowUs := 1000
  nmtStartup := NmtStartup.wait.code
  producerEmcyCobId := 0

/-! Addressing of the records. -/

/-- The record types: the seven values of `io_domain_t` and the system record. -/
inductive Domain where
  | di
  | do_
  | tc
  | ai
  | ao
  | pcnt
  | pwm
  | system
  deriving DecidableEq, Repr

namespace Domain

abbrev Record : Domain → Type
  | .di => DiConfig
  | .do_ => DoConfig
  | .tc => TcConfig
  | .ai => AiConfig
  | .ao => AoConfig
  | .pcnt => PcntConfig
  | .pwm => PwmConfig
  | .system => SystemConfig

instance (domain : Domain) : DecidableEq domain.Record := by
  cases domain <;> exact inferInstance

def count : Domain → Nat
  | .di => configNumDi
  | .do_ => configNumDo
  | .tc => configNumTc
  | .ai => configNumAi
  | .ao => configNumAo
  | .pcnt => configNumPcnt
  | .pwm => configNumPwm
  | .system => 1

def default : (domain : Domain) → domain.Record
  | .di => diDefault
  | .do_ => doDefault
  | .tc => tcDefault
  | .ai => aiDefault
  | .ao => aoDefault
  | .pcnt => pcntDefault
  | .pwm => pwmDefault
  | .system => systemDefault

/-- The order in which `encode_cache_locked` visits the types. -/
def all : List Domain := [.di, .do_, .tc, .ai, .ao, .pcnt, .pwm, .system]

theorem mem_all (domain : Domain) : domain ∈ all := by cases domain <;> decide

end Domain

structure RecordKey where
  domain : Domain
  index : Fin domain.count
  deriving DecidableEq, Repr

namespace Domain

def keys (domain : Domain) : List RecordKey :=
  (List.finRange domain.count).map (RecordKey.mk domain)

end Domain

/-- The 57 entries in the order they are encoded. -/
def recordKeys : List RecordKey := Domain.all.flatMap Domain.keys

theorem mem_recordKeys (key : RecordKey) : key ∈ recordKeys :=
  List.mem_flatMap.mpr ⟨key.domain, key.domain.mem_all,
    List.mem_map.mpr ⟨key.index, List.mem_finRange _, rfl⟩⟩

theorem recordKeys_nodup : recordKeys.Nodup := by decide

structure ConfigCache where
  di : Vector DiConfig configNumDi
  do_ : Vector DoConfig configNumDo
  tc : Vector TcConfig configNumTc
  ai : Vector AiConfig configNumAi
  ao : Vector AoConfig configNumAo
  pcnt : Vector PcntConfig configNumPcnt
  pwm : Vector PwmConfig configNumPwm
  system : SystemConfig
  deriving DecidableEq, Repr

namespace ConfigCache

def get (cache : ConfigCache) : (key : RecordKey) → key.domain.Record
  | ⟨.di, index⟩ => cache.di.get index
  | ⟨.do_, index⟩ => cache.do_.get index
  | ⟨.tc, index⟩ => cache.tc.get index
  | ⟨.ai, index⟩ => cache.ai.get index
  | ⟨.ao, index⟩ => cache.ao.get index
  | ⟨.pcnt, index⟩ => cache.pcnt.get index
  | ⟨.pwm, index⟩ => cache.pwm.get index
  | ⟨.system, _⟩ => cache.system

def set (cache : ConfigCache) : (key : RecordKey) → key.domain.Record → ConfigCache
  | ⟨.di, index⟩, record => { cache with di := cache.di.set index record index.isLt }
  | ⟨.do_, index⟩, record => { cache with do_ := cache.do_.set index record index.isLt }
  | ⟨.tc, index⟩, record => { cache with tc := cache.tc.set index record index.isLt }
  | ⟨.ai, index⟩, record => { cache with ai := cache.ai.set index record index.isLt }
  | ⟨.ao, index⟩, record => { cache with ao := cache.ao.set index record index.isLt }
  | ⟨.pcnt, index⟩, record => { cache with pcnt := cache.pcnt.set index record index.isLt }
  | ⟨.pwm, index⟩, record => { cache with pwm := cache.pwm.set index record index.isLt }
  | ⟨.system, _⟩, record => { cache with system := record }

def defaults : ConfigCache where
  di := Vector.replicate configNumDi diDefault
  do_ := Vector.replicate configNumDo doDefault
  tc := Vector.replicate configNumTc tcDefault
  ai := Vector.replicate configNumAi aiDefault
  ao := Vector.replicate configNumAo aoDefault
  pcnt := Vector.replicate configNumPcnt pcntDefault
  pwm := Vector.replicate configNumPwm pwmDefault
  system := systemDefault

private theorem vector_get_set {α : Type} {n : Nat} (entries : Vector α n) (i j : Fin n)
    (entry : α) : (entries.set i entry i.isLt).get j = if i = j then entry else entries.get j := by
  have shape := @Vector.getElem_set α n entries i entry i.isLt j j.isLt
  simp only [← Fin.ext_iff] at shape
  exact shape

private theorem vector_ext_get {α : Type} {n : Nat} {left right : Vector α n}
    (same : ∀ i, left.get i = right.get i) : left = right :=
  Vector.ext fun i bound => same ⟨i, bound⟩

@[simp] theorem get_set_same (cache : ConfigCache) (key : RecordKey) (record : key.domain.Record) :
    (cache.set key record).get key = record := by
  obtain ⟨domain, index⟩ := key
  cases domain <;> first | exact (vector_get_set _ _ _ _).trans (if_pos rfl) | rfl

theorem get_set_other (cache : ConfigCache) {key other : RecordKey} (record : key.domain.Record)
    (apart : other ≠ key) : (cache.set key record).get other = cache.get other := by
  obtain ⟨domain, index⟩ := key
  obtain ⟨place, slot⟩ := other
  cases domain <;> cases place <;> first
    | rfl
    | exact (vector_get_set _ _ _ _).trans (if_neg fun same => apart (by rw [same]))
    | exact absurd (by rw [Subsingleton.elim (α := Fin 1) slot index]) apart

theorem ext_get {left right : ConfigCache} (same : ∀ key, left.get key = right.get key) :
    left = right := by
  obtain ⟨di, do_, tc, ai, ao, pcnt, pwm, system⟩ := left
  obtain ⟨di', do', tc', ai', ao', pcnt', pwm', system'⟩ := right
  congr
  · exact vector_ext_get fun i => same ⟨.di, i⟩
  · exact vector_ext_get fun i => same ⟨.do_, i⟩
  · exact vector_ext_get fun i => same ⟨.tc, i⟩
  · exact vector_ext_get fun i => same ⟨.ai, i⟩
  · exact vector_ext_get fun i => same ⟨.ao, i⟩
  · exact vector_ext_get fun i => same ⟨.pcnt, i⟩
  · exact vector_ext_get fun i => same ⟨.pwm, i⟩
  · exact same ⟨.system, ⟨0, Nat.one_pos⟩⟩

theorem get_defaults (key : RecordKey) : defaults.get key = key.domain.default := by
  obtain ⟨domain, index⟩ := key
  cases domain <;> first | exact Vector.getElem_replicate _ | rfl

end ConfigCache

end ConfigWp
