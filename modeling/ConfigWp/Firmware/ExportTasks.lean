import ConfigWp.Firmware.ImportTasks
import ConfigWp.Application.ExportRoundTrip
import ConfigWp.Library.Sampling

/-! The export that `uart_sim_task` makes for a client, among the other tasks. Each getter
of `config_export_json` is one step; what the builders make of the records is out of the
reach of the others. -/

set_option autoImplicit false

namespace ConfigWp

open Sampling

/-! The getters of an export and the document built from them. -/

/-- The records in the order in which `config_export_json` calls their getters. -/
def exportPlan : List RecordKey :=
  Domain.system.keys ++ [Domain.di, .do_, .tc, .ai, .ao, .pcnt, .pwm].flatMap Domain.keys

theorem exportPlan_perm : exportPlan.Perm recordKeys := by
  have split : recordKeys =
      [Domain.di, .do_, .tc, .ai, .ao, .pcnt, .pwm].flatMap Domain.keys ++ Domain.system.keys := by
    simp [recordKeys, Domain.all]
  rw [split]
  exact List.perm_append_comm

theorem exportPlan_nodup : exportPlan.Nodup := exportPlan_perm.nodup_iff.mpr recordKeys_nodup

theorem mem_exportPlan (key : RecordKey) : key ∈ exportPlan :=
  exportPlan_perm.mem_iff.mpr (mem_recordKeys key)

/-- A record as its getter gave it, if the getter succeeded. -/
abbrev Gotten (key : RecordKey) : Type := Option key.domain.Record

def getRecords (m : Manager) (key : RecordKey) : Gotten key :=
  (configGetRecord key.domain m (UInt8.ofNat key.index)).toOption

theorem getRecords_ready {m : Manager} (ready : m.initialised = true) (key : RecordKey) :
    getRecords m key = some (m.cache.get key) := by
  rw [getRecords, configGetRecord_channel ready]
  rfl

def builtArray (domain : Domain) (builder : UInt8 → domain.Record → Json)
    (gotten : (key : RecordKey) → Gotten key) : Json :=
  .array ((List.finRange domain.count).filterMap fun i =>
    (gotten ⟨domain, i⟩).map (builder (UInt8.ofNat i)))

def builtDocument (gotten : (key : RecordKey) → Gotten key) : Json :=
  let system := ((gotten systemKey).map fun s => (ascii "system", buildSystem s)).toList
  .object ((ascii "format", .number 2) :: system ++
    [(ascii "di", builtArray .di buildDi gotten), (ascii "do", builtArray .do_ buildDo gotten),
      (ascii "tc", builtArray .tc buildTc gotten), (ascii "ai", builtArray .ai buildAi gotten),
      (ascii "ao", builtArray .ao buildAo gotten),
      (ascii "pcnt", builtArray .pcnt buildPcnt gotten),
      (ascii "pwm", builtArray .pwm buildPwm gotten)])

theorem emitArray_gotten (domain : Domain) (builder : UInt8 → domain.Record → Json)
    (m : Manager) : emitArray domain builder m = builtArray domain builder (getRecords m) := by
  rw [emitArray, builtArray, ← List.map_coe_finRange_eq_range, List.filterMap_map]
  congr 1
  refine List.filterMap_congr fun i _ => ?_
  rw [Function.comp_apply, getRecords]
  cases configGetRecord domain m (UInt8.ofNat i) <;> rfl

theorem configExportDocument_gotten (m : Manager) :
    configExportDocument m = builtDocument (getRecords m) := by
  have system : getRecords m systemKey = (configGetSystem m).toOption := by
    rw [getRecords, configGetSystem_eq]
    rfl
  rw [configExportDocument, builtDocument, system]
  simp only [emitArray_gotten]
  cases configGetSystem m <;> rfl

section Steps

variable (undefined : Rat → Int32) (parse : List UInt8 → Option Json)
  (print : Json → Option (List UInt8))

/-- What `uart_sim_handle_get` sends once the getters have run. -/
def exportReply (gotten : (key : RecordKey) → Gotten key) : List UInt8 :=
  match print (builtDocument gotten) with
  | none => ascii ("ERROR: export failed (" ++ configPrintStatus .errInternal ++ ")\n")
  | some out =>
      if (cString out).length + 1 > uartSimTxBufBytes then
        ascii ("ERROR: export failed (" ++ configPrintStatus .errTooLarge ++ ")\n")
      else cString out ++ ascii "\nOK\n"

theorem uartSimHandleGet_gotten (m : Manager) :
    uartSimHandleGet print m = exportReply print (getRecords m) := by
  rw [uartSimHandleGet, configExportJson, configExportDocument_gotten, exportReply,
    if_neg (by decide)]
  cases print (builtDocument (getRecords m)) with
  | none => rfl
  | some out =>
      dsimp only
      split_ifs <;> rfl

/-- The firmware, the export that `uart_sim_task` has in hand, and the replies to exports. -/
structure ServedFirmware where
  firmware : Firmware
  exporting : Option (Reader Gotten)
  replies : List (List UInt8)

inductive ServedAction where
  | firmware (action : FirmwareAction)
  | exporter

def ServedAction.isExporter : ServedAction → Bool
  | .firmware _ => false
  | .exporter => true

def beginExport : Reader Gotten := ⟨exportPlan, fun _ => none⟩

/-- While it exports, `uart_sim_task` accepts no connection. -/
def servedConnect (served : ServedFirmware) (answers : List Recv) : ServedFirmware :=
  match served.exporting with
  | some _ => served
  | none =>
      match served.firmware.point .uartSim, uartSimDispatch (uartSimReceive [] answers) with
      | .waiting, some .getConfig => { served with exporting := some beginExport }
      | _, _ => { served with firmware := uartSimAccept parse served.firmware answers }

/-- The next getter of the export, or, behind the last, the reply. -/
def exportStep (served : ServedFirmware) : ServedFirmware :=
  match served.exporting with
  | none => served
  | some reader =>
      match reader.todo with
      | [] =>
          { served with
            exporting := none
            replies := served.replies ++ [exportReply print reader.taken] }
      | _ :: _ =>
          { served with
            exporting := some (reader.advance (getRecords served.firmware.system.manager)) }

def servedStep (served : ServedFirmware) : ServedAction → ServedFirmware
  | .firmware (.connect answers) => servedConnect parse served answers
  | .firmware action =>
      { served with firmware := firmwareStep undefined parse served.firmware action }
  | .exporter => exportStep print served

end Steps

end ConfigWp
