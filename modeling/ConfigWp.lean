import ConfigWp.Library.LittleEndian
import ConfigWp.Library.Splice
import ConfigWp.Library.Framing
import ConfigWp.Library.Packing
import ConfigWp.Library.Machine
import ConfigWp.Library.Overlay
import ConfigWp.Library.Writes
import ConfigWp.Library.DoubleBuffer
import ConfigWp.Library.Traced
import ConfigWp.Library.ReadModifyWrite
import ConfigWp.Library.WriteBehind
import ConfigWp.Library.Coalescing
import ConfigWp.Library.ShiftRegister
import ConfigWp.Library.KeywordScan
import ConfigWp.Library.Locking
import ConfigWp.Library.Sampling
import ConfigWp.Drivers.Storage
import ConfigWp.Application.Crc32
import ConfigWp.Application.Crc32Properties
import ConfigWp.Application.Slot
import ConfigWp.Application.SlotProperties
import ConfigWp.Application.SlotRuns
import ConfigWp.Application.SlotFaults
import ConfigWp.Application.SlotReads
import ConfigWp.Application.SlotCorruption
import ConfigWp.Application.SlotFlips
import ConfigWp.Application.SlotHistory
import ConfigWp.Application.Tlv
import ConfigWp.Application.TlvProperties
import ConfigWp.Application.TlvRuns
import ConfigWp.Application.Types
import ConfigWp.Application.Codec
import ConfigWp.Application.CodecProperties
import ConfigWp.Application.CodecInverse
import ConfigWp.Application.Config
import ConfigWp.Application.ConfigLoad
import ConfigWp.Application.ConfigSave
import ConfigWp.Application.ConfigRuns
import ConfigWp.Application.ConfigValid
import ConfigWp.Application.Storable
import ConfigWp.Application.UnknownRuns
import ConfigWp.Application.Persistence
import ConfigWp.Application.ConfigBoot
import ConfigWp.Application.Json
import ConfigWp.Application.ConfigJson
import ConfigWp.Application.ConfigExport
import ConfigWp.Application.EepromManager
import ConfigWp.Application.SetterRuns
import ConfigWp.Application.Validity
import ConfigWp.Application.Fields
import ConfigWp.Application.FieldPatches
import ConfigWp.Application.FieldRequests
import ConfigWp.Application.ImportEntries
import ConfigWp.Application.ImportNumbers
import ConfigWp.Application.ImportDocument
import ConfigWp.Application.ImportPlan
import ConfigWp.Application.FieldWrites
import ConfigWp.Application.ImportIndependence
import ConfigWp.Application.ClientRuns
import ConfigWp.Application.ImportReport
import ConfigWp.Application.ExportRoundTrip
import ConfigWp.Application.ExportSize
import ConfigWp.Application.ConcurrentUpdates
import ConfigWp.Application.EepromTask
import ConfigWp.Application.CommitDurability
import ConfigWp.Application.Coalescing
import ConfigWp.Application.PowerCycles
import ConfigWp.Application.DamagedBoots
import ConfigWp.Application.Quiescence
import ConfigWp.Application.FailedBoots
import ConfigWp.Application.RequestRuns
import ConfigWp.Application.ConfigLock
import ConfigWp.Application.LockedTasks
import ConfigWp.Drivers.UartSim
import ConfigWp.Drivers.UartDispatch
import ConfigWp.Drivers.UartStream
import ConfigWp.Drivers.UartBackup
import ConfigWp.Firmware.ImportTasks
import ConfigWp.Firmware.ImportRuns
import ConfigWp.Firmware.ExportTasks
import ConfigWp.Firmware.ExportRuns
import ConfigWp.Firmware.ImportStores
import ConfigWp.Firmware.Restore
