import ConfigWp.Application.ExportSize
import ConfigWp.Drivers.UartStream

/-! A backup over the AT driver. The text in the reply to `AT+GET_CONFIG`, without the `OK`
that closes it, sent back behind a line `AT+SET_CONFIG`, is a frame that fits the receive
buffer whatever the configuration, and no entry of it is refused. -/

set_option autoImplicit false

namespace ConfigWp

/-! The wire. -/

section Wire

variable {print : Json → Option (List UInt8)}

/-- No reply to a failed export ends as that to a successful one does. -/
theorem exported_of_reply {m : Manager} {text : List UInt8}
    (replied : uartSimHandleGet print m = text ++ ascii "\nOK\n") :
    ∃ printed, print (configExportDocument m) = some printed ∧ text = cString printed := by
  rw [uartSimHandleGet] at replied
  cases exported : configExportJson print (some uartSimTxBufBytes) m with
  | error status =>
      rw [exported] at replied
      have ends : ascii "\nOK\n" <:+
          ascii ("ERROR: export failed (" ++ configPrintStatus status ++ ")\n") :=
        ⟨text, replied.symm⟩
      exfalso
      revert ends
      cases status <;> decide
  | ok shown =>
      rw [exported] at replied
      obtain rfl := List.append_cancel_right replied
      rw [configExportJson] at exported
      cases printed : print (configExportDocument m) with
      | none =>
          rw [printed] at exported
          cases exported
      | some out =>
          rw [printed] at exported
          dsimp only at exported
          split_ifs at exported
          exact ⟨out, rfl, (Except.ok.inj exported).symm⟩

theorem uartSimDispatch_setConfig (text : List UInt8) :
    uartSimDispatch (ascii "AT+SET_CONFIG\n" ++ text) = some (.setConfig text) := by
  have extracted : uartSimExtractCmd (ascii "AT+SET_CONFIG\n" ++ text) uartSimCmdBytes =
      (ascii "AT+SET_CONFIG", (ascii "AT+SET_CONFIG\n" ++ text).length - text.length) := rfl
  have header : (ascii "AT+SET_CONFIG\n" ++ text).length - text.length = 14 := by
    rw [List.length_append, Nat.add_sub_cancel]
    rfl
  rw [uartSimDispatch, if_neg (by simp [ascii]), extracted, header]
  rfl

end Wire

/-! The report of an export that is imported. -/

theorem unknownMembers_exported (m : Manager) : unknownMembers (exportedDocument m) = 0 := by
  have format : memberRole (ascii "format") = .format := by decide
  have system := memberRole_memberName .system
  rw [Domain.memberName] at system
  simp [unknownMembers, exportedDocument, exportedArray, format, system, memberRole_memberName]

theorem arrayOffers_exported (m : Manager) (domain : Domain) :
    arrayOffers (.array (exportedEntries domain m)) = domain.count := by
  have present : ∀ entry ∈ exportedEntries domain m, (!entry.isNull) = true := by
    intro entry listed
    obtain ⟨channel, -, rfl⟩ := List.mem_map.mp listed
    rw [exportedEntry, buildRecord_eq]
    rfl
  rw [arrayOffers, List.countP_eq_length.mpr present, exportedEntries, List.length_map,
    List.length_finRange]

theorem offered_exported (m : Manager) : offered (exportedDocument m) = 57 := by
  have format : memberRole (ascii "format") = .format := by decide
  have system := memberRole_memberName .system
  rw [Domain.memberName] at system
  simp [offered, exportedDocument, memberOffers, exportedArray, format, system,
    memberRole_memberName, arrayOffers_exported]
  decide

theorem passedOver_exported (m : Manager) : passedOver (exportedDocument m) = 0 := by
  refine Finset.sum_eq_zero fun domain io => ?_
  rw [named_exportedDocument, if_neg (Domain.mem_arrays.mp io)]
  rfl

theorem again_exported (undefined : Rat → Int32) (cache : ConfigCache) (m : Manager)
    (verdict : Verdict) : again undefined cache (exportedDocument m) verdict = 0 := by
  refine Finset.sum_eq_zero fun domain io => ?_
  rw [named_exportedDocument, if_neg (Domain.mem_arrays.mp io)]
  exact Nat.zero_mul _

theorem once_accepted_exported (undefined : Rat → Int32) {s s' : Manager} (valid : s.cache.Valid)
    (valid' : s'.cache.Valid) :
    once undefined s'.cache (exportedDocument s) .accepted = 57 := by
  have all := @offered_eq undefined s'.cache (exportedDocument s)
  rw [offered_exported, once_exported undefined valid valid' (by decide : Verdict.rejected ≠ _),
    once_exported undefined valid valid' (by decide : Verdict.malformed ≠ _),
    passedOver_exported] at all
  omega

/-- All 57 records are accepted, on any device. -/
theorem report_exported (undefined : Rat → Int32) {s s' : Manager} (valid : s.cache.Valid)
    (valid' : s'.cache.Valid) (ready' : s'.initialised = true) {report : ImportReport}
    (reported : report =
      (configImportDocument undefined (.object (exportedDocument s)) s').2.report) :
    report.accepted = 57 ∧ report.rejected = 0 ∧ report.malformed = 0 ∧
      report.unknownKeys = 0 := by
  have logged := @configImportDocument_logs undefined s' ready' (exportedDocument s)
  rw [← reported] at logged
  obtain ⟨accepted, rejected, malformed, unknownKeys, -⟩ := logged
  rw [documentVerdicts_count, again_exported] at accepted rejected malformed
  rw [once_accepted_exported undefined valid valid'] at accepted
  rw [once_exported undefined valid valid' (by decide)] at rejected malformed
  rw [unknownMembers_exported] at unknownKeys
  exact ⟨accepted, rejected, malformed, unknownKeys⟩

/-! The exchange. -/

section Backup

variable {print : Json → Option (List UInt8)} {undefined : Rat → Int32}
  {parse : List UInt8 → Option Json} {source target : UartHost} {printed : List UInt8}

theorem export_fits {m : Manager} (ready : m.initialised = true) (valid : m.cache.Valid)
    (laidOut : printed.length ≤ (printValue 0 (configExportDocument m)).length) :
    (cString printed).length ≤ 15124 := by
  rw [← documentRoom_eq]
  exact ((List.takeWhile_prefix _).length_le.trans laidOut).trans (length_export_le ready valid)

/-- A text of that length is received whole behind its command. -/
theorem arrivedFrame_sent {text : List UInt8} (short : text.length ≤ 15124) {sending : List Recv}
    (sent : arrivedBytes sending = ascii "AT+SET_CONFIG\n" ++ text) :
    arrivedFrame sending = ascii "AT+SET_CONFIG\n" ++ text := by
  have header : (ascii "AT+SET_CONFIG\n").length = 14 := rfl
  rw [arrivedFrame, sent]
  refine List.take_of_length_le ?_
  rw [List.length_append, uartSimRxBufBytes]
  omega

theorem uartSimHandleSet_exported {s : Manager} (ready : s.initialised = true)
    (valid : s.cache.Valid) (ready' : target.manager.initialised = true)
    (valid' : target.manager.cache.Valid) (present : cString printed ≠ [])
    (reparses : parse (cString printed) = some (configExportDocument s)) :
    (∃ report queued,
      (uartSimHandleSet undefined parse (cString printed) target).1 =
          ascii (importReply report queued) ∧
        report.accepted = 57 ∧ report.rejected = 0 ∧ report.malformed = 0 ∧
          report.unknownKeys = 0) ∧
      ((∀ place, ((uartSimHandleSet undefined parse (cString printed) target).2.manager.cache.field
          place).Same (s.cache.field place)) ↔ KelvinAgrees s.cache target.manager.cache) := by
  have counted := @report_exported undefined s target.manager valid valid' ready' _ rfl
  have fields := @field_exported undefined s target.manager valid valid' ready'
  have finished : (configImportDocument undefined (.object (exportedDocument s))
      target.manager).1 = .ok () := rfl
  rw [uartSimHandleSet, if_neg present, configImportJson_exported undefined ready reparses]
  generalize configImportDocument undefined (.object (exportedDocument s)) target.manager = outcome
    at counted fields finished ⊢
  obtain ⟨status, done⟩ := outcome
  obtain rfl := finished
  have frame := queueCommit_manager { target with manager := done.manager }
  dsimp only at counted fields frame ⊢
  generalize UartHost.queueCommit { target with manager := done.manager } = committed at frame ⊢
  obtain ⟨queued, host⟩ := committed
  dsimp only at frame ⊢
  refine ⟨⟨done.report, queued, rfl, counted⟩, ?_⟩
  rw [frame, ← restored_iff_kelvinAgrees valid]
  exact forall_congr' fun place => by rw [← fields place]

/-- Whatever the two configurations are, a device is never refused its backup for want of
room, if the printer needs no more of it than the layout, and the other device receives it
whole and accepts each of its 57 records. Only kelvin may be missing from it. -/
theorem backup_accepted (ready : source.manager.initialised = true)
    (valid : source.manager.cache.Valid) (ready' : target.manager.initialised = true)
    (valid' : target.manager.cache.Valid)
    (prints : print (configExportDocument source.manager) = some printed)
    (laidOut : printed.length ≤ (printValue 0 (configExportDocument source.manager)).length)
    (reparses : parse (cString printed) = some (configExportDocument source.manager))
    (empty : parse [] = none) {asking : List Recv}
    (asks : uartSimDispatch (arrivedFrame asking) = some .getConfig) :
    ∃ text, (uartSimServe print undefined parse source asking).1 = text ++ ascii "\nOK\n" ∧
      ∀ sending, arrivedBytes sending = ascii "AT+SET_CONFIG\n" ++ text →
        (∃ report queued,
          (uartSimServe print undefined parse target sending).1 =
              ascii (importReply report queued) ∧
            report.accepted = 57 ∧ report.rejected = 0 ∧ report.malformed = 0 ∧
              report.unknownKeys = 0) ∧
          ((∀ place, ((uartSimServe print undefined parse target sending).2.manager.cache.field
              place).Same (source.manager.cache.field place)) ↔
            KelvinAgrees source.manager.cache target.manager.cache) := by
  have room := export_fits ready valid laidOut
  refine ⟨cString printed, ?_, fun sending sent => ?_⟩
  · have exported : configExportJson print (some uartSimTxBufBytes) source.manager =
        .ok (cString printed) := configExportJson_printed prints (by rw [uartSimTxBufBytes]; omega)
    rw [uartSimServe, uartSimReceive_arrived, asks]
    dsimp only
    rw [uartSimHandleGet, exported]
  · have present : cString printed ≠ [] := by
      intro nothing
      rw [nothing, empty] at reparses
      cases reparses
    rw [uartSimServe, uartSimReceive_arrived, arrivedFrame_sent room sent,
      uartSimDispatch_setConfig]
    exact uartSimHandleSet_exported ready valid ready' valid' present reparses

end Backup

theorem exportText_ne_nil (m : Manager) : cString (printValue 0 (configExportDocument m)) ≠ [] := by
  rw [configExportDocument, printValue]
  exact List.cons_ne_nil _ _

theorem parseExport_nil (m : Manager) : parseExport m [] = none :=
  if_neg (exportText_ne_nil m).symm

def kelvinHost : UartHost := ⟨kelvinManager, some []⟩

theorem backup_accepted_kelvin :
    ∃ text, (uartSimServe cJsonPrint (fun _ => int32Min) (parseExport kelvinManager) kelvinHost
        [.data (ascii "at+get"), .interrupted, .data (ascii "_config\r\n")]).1 =
          text ++ ascii "\nOK\n" ∧
      ∀ sending, arrivedBytes sending = ascii "AT+SET_CONFIG\n" ++ text →
        (∃ report queued,
          (uartSimServe cJsonPrint (fun _ => int32Min) (parseExport kelvinManager) kelvinHost
              sending).1 = ascii (importReply report queued) ∧
            report.accepted = 57 ∧ report.rejected = 0 ∧ report.malformed = 0 ∧
              report.unknownKeys = 0) ∧
          ((∀ place, ((uartSimServe cJsonPrint (fun _ => int32Min) (parseExport kelvinManager)
              kelvinHost sending).2.manager.cache.field place).Same
                (kelvinManager.cache.field place)) ↔
            KelvinAgrees kelvinManager.cache kelvinManager.cache) :=
  @backup_accepted cJsonPrint (fun _ => int32Min) (parseExport kelvinManager) kelvinHost kelvinHost
    _ rfl kelvinManager_valid rfl kelvinManager_valid (cJsonPrint_export kelvinManager)
    (Nat.le_refl _) (parseExport_printed kelvinManager) (parseExport_nil kelvinManager) _
    (by decide +kernel)

end ConfigWp
