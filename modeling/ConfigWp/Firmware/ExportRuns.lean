import ConfigWp.Firmware.ExportTasks
import ConfigWp.Firmware.ImportRuns

/-! What an export comes to among the other tasks. It replies with a configuration whose
records are those of the cache at increasing moments of the export, and so with the
configuration of one moment while the other tasks change at most one record. -/

set_option autoImplicit false

namespace ConfigWp

open Sampling

section Exports

variable {undefined : Rat → Int32} {parse : List UInt8 → Option Json}
  {print : Json → Option (List UInt8)} {served : ServedFirmware}

/-! The export as a reader of the records. -/

def exportReader (served : ServedFirmware) : Reader Gotten :=
  served.exporting.getD ⟨[], fun _ => none⟩

def shownRecords (served : ServedFirmware) : (key : RecordKey) → Gotten key :=
  getRecords served.firmware.system.manager

/-- The others neither move an export nor reply to it. -/
theorem servedStep_busy {reader : Reader Gotten} (busy : served.exporting = some reader)
    (action : FirmwareAction) :
    (servedStep undefined parse print served (.firmware action)).exporting = some reader ∧
      (servedStep undefined parse print served (.firmware action)).replies = served.replies := by
  cases action with
  | connect answers =>
      rw [servedStep, servedConnect, busy]
      exact ⟨busy, rfl⟩
  | _ => exact ⟨busy, rfl⟩

theorem exportStep_ended {reader : Reader Gotten} (busy : served.exporting = some reader)
    (ended : reader.todo = []) :
    exportStep print served =
      { served with
        exporting := none
        replies := served.replies ++ [exportReply print reader.taken] } := by
  rw [exportStep, busy]
  dsimp only
  rw [ended]

theorem exportStep_going {reader : Reader Gotten} (busy : served.exporting = some reader)
    (going : reader.todo ≠ []) :
    exportStep print served =
      { served with exporting := some (reader.advance (shownRecords served)) } := by
  rw [exportStep, busy]
  dsimp only
  cases left : reader.todo with
  | nil => exact absurd left going
  | cons key todo => rfl

theorem servedStep_replies (action : ServedAction) :
    served.replies <+: (servedStep undefined parse print served action).replies := by
  cases action with
  | firmware action =>
      cases action with
      | connect answers =>
          rw [servedStep, servedConnect]
          split
          · exact List.prefix_rfl
          · split <;> exact List.prefix_rfl
      | _ => exact List.prefix_rfl
  | exporter =>
      rw [servedStep]
      cases busy : served.exporting with
      | none =>
          rw [exportStep, busy]
      | some reader =>
          by_cases ended : reader.todo = []
          · rw [exportStep_ended busy ended]
            exact List.prefix_append _ _
          · rw [exportStep_going busy ended]

theorem served_run_replies (actions : List ServedAction) :
    served.replies <+:
      (Machine.run (servedStep undefined parse print) served actions).replies := by
  induction actions generalizing served with
  | nil => exact List.prefix_rfl
  | cons action actions ih => exact (servedStep_replies action).trans ih

/-- The next reply of a run that is exporting ends a front of it in which the export has
called one getter after the other. -/
theorem export_answered {reader : Reader Gotten} (busy : served.exporting = some reader)
    {during : List ServedAction} {reply : List UInt8} {more : List (List UInt8)}
    (answered : (Machine.run (servedStep undefined parse print) served during).replies =
      served.replies ++ reply :: more) :
    ∃ done later, during = done ++ .exporter :: later ∧
      Moves (servedStep undefined parse print) shownRecords exportReader served done ∧
      (exportReader (Machine.run (servedStep undefined parse print) served done)).todo = [] ∧
      reply = exportReply print
        (exportReader (Machine.run (servedStep undefined parse print) served done)).taken := by
  induction during generalizing served reader with
  | nil =>
      rw [Machine.run_nil] at answered
      simp at answered
  | cons action during ih =>
      have here : exportReader served = reader := by rw [exportReader, busy]; rfl
      rw [Machine.run_cons] at answered
      cases action with
      | firmware action =>
          obtain ⟨still, silent⟩ :=
            @servedStep_busy undefined parse print served reader busy action
          rw [← silent] at answered
          obtain ⟨done, later, split, moves, ended, said⟩ := ih still answered
          have same : exportReader (servedStep undefined parse print served (.firmware action)) =
              exportReader served := by
            rw [here, exportReader, still]
            rfl
          exact ⟨.firmware action :: done, later, by rw [split]; rfl, ⟨.inl same, moves⟩,
            ended, said⟩
      | exporter =>
          rw [servedStep] at answered
          by_cases last : reader.todo = []
          · refine ⟨[], during, rfl, trivial, ?_, ?_⟩
            · rw [Machine.run_nil, here]
              exact last
            · have grown := @served_run_replies undefined parse print (exportStep print served)
                during
              rw [answered, exportStep_ended busy last] at grown
              dsimp only at grown
              rw [List.prefix_append_right_inj] at grown
              obtain ⟨rest, whole⟩ := grown
              rw [Machine.run_nil, here]
              exact (List.cons.inj whole).1.symm
          · have stepped := @exportStep_going print served reader busy last
            rw [stepped] at answered
            obtain ⟨done, later, split, moves, ended, said⟩ := ih rfl answered
            have next : servedStep undefined parse print served .exporter =
                { served with exporting := some (reader.advance (shownRecords served)) } := stepped
            refine ⟨.exporter :: done, later, by rw [split]; rfl, ⟨.inr ?_, ?_⟩, ?_, ?_⟩
            · rw [next, here]
              rfl
            · rw [next]
              exact moves
            · rw [Machine.run_cons, next]
              exact ended
            · rw [Machine.run_cons, next]
              exact said

/-! The configurations that a run goes through. -/

/-- A ready manager, and a valid one if it was valid before. -/
structure Kept (start : ServedFirmware) (served : ServedFirmware) : Prop where
  ready : served.firmware.system.manager.initialised = true
  valid : start.firmware.cache.Valid → served.firmware.cache.Valid

theorem Kept.system {start : ServedFirmware} (kept : Kept start served)
    {next : ServedFirmware} {calls : List SystemAction}
    (reached : next.firmware.system = Machine.run systemStep served.firmware.system calls) :
    Kept start next := by
  have ready : ∀ system action, True → system.manager.initialised = true →
      (systemStep system action).manager.initialised = true :=
    fun system action _ before => (systemStep_initialised system action).trans before
  have valid : ∀ system action, True → system.manager.cache.Valid →
      (systemStep system action).manager.cache.Valid :=
    fun system action _ before => systemStep_valid system action before
  refine ⟨?_, fun before => ?_⟩
  · rw [reached]
    exact @Machine.run_invariant _ _ systemStep (fun system => system.manager.initialised = true)
      (fun _ => True) served.firmware.system kept.ready ready calls fun _ _ => trivial
  · rw [Firmware.cache, reached]
    exact @Machine.run_invariant _ _ systemStep (fun system => system.manager.cache.Valid)
      (fun _ => True) served.firmware.system (kept.valid before) valid calls fun _ _ => trivial

theorem servedStep_system (action : ServedAction) :
    ∃ calls, (servedStep undefined parse print served action).firmware.system =
      Machine.run systemStep served.firmware.system calls := by
  cases action with
  | firmware action =>
      cases action with
      | connect answers =>
          have accepted := @firmwareStep_system undefined parse served.firmware (.connect answers)
          rw [firmwareStep] at accepted
          rw [servedStep, servedConnect]
          split
          · exact ⟨[], rfl⟩
          · split
            · exact ⟨[], rfl⟩
            · exact accepted
      | call action => exact @firmwareStep_system undefined parse _ (.call action)
      | submit json => exact @firmwareStep_system undefined parse _ (.submit json)
      | importer importer => exact @firmwareStep_system undefined parse _ (.importer importer)
  | exporter =>
      refine ⟨[], ?_⟩
      rw [servedStep]
      cases busy : served.exporting with
      | none => rw [exportStep, busy, Machine.run_nil]
      | some reader =>
          by_cases ended : reader.todo = []
          · rw [exportStep_ended busy ended, Machine.run_nil]
          · rw [exportStep_going busy ended, Machine.run_nil]

theorem kept_run (ready : served.firmware.system.manager.initialised = true)
    (actions : List ServedAction) :
    Kept served (Machine.run (servedStep undefined parse print) served actions) := by
  have kept : ∀ state action, True → Kept served state →
      Kept served (servedStep undefined parse print state action) := by
    intro state action _ before
    obtain ⟨calls, reached⟩ := @servedStep_system undefined parse print state action
    exact before.system reached
  exact @Machine.run_invariant _ _ (servedStep undefined parse print) (Kept served)
    (fun _ => True) served ⟨ready, fun valid => valid⟩ kept actions fun _ _ => trivial

/-! The exported configuration. -/

/-- A cache made of records of any caches. -/
theorem exists_cache (records : (key : RecordKey) → key.domain.Record) :
    ∃ cache : ConfigCache, ∀ key, cache.get key = records key := by
  have listed : ∀ keys : List RecordKey,
      ∃ cache : ConfigCache, ∀ key ∈ keys, cache.get key = records key := by
    intro keys
    induction keys with
    | nil => exact ⟨.defaults, fun _ member => absurd member (List.not_mem_nil)⟩
    | cons first rest ih =>
        obtain ⟨cache, made⟩ := ih
        refine ⟨cache.set first (records first), fun key member => ?_⟩
        by_cases same : key = first
        · subst same
          exact ConfigCache.get_set_same _ _ _
        · rw [ConfigCache.get_set_other _ _ same]
          exact made key ((List.mem_cons.mp member).resolve_left same)
  obtain ⟨cache, made⟩ := listed recordKeys
  exact ⟨cache, fun key => made key (mem_recordKeys key)⟩

variable (undefined parse print) in
/-- The firmware after so many steps of a run. -/
def servedAt (served : ServedFirmware) (during : List ServedAction) (moment : Nat) : Firmware :=
  (Machine.run (servedStep undefined parse print) served (during.take moment)).firmware

/-- An export replies once it has had a step for every getter and one more. -/
theorem export_replies {reader : Reader Gotten} (busy : served.exporting = some reader)
    {during : List ServedAction}
    (enough : reader.todo.length < during.countP ServedAction.isExporter) :
    ∃ reply more, (Machine.run (servedStep undefined parse print) served during).replies =
      served.replies ++ reply :: more := by
  induction during generalizing served reader with
  | nil => exact absurd enough (Nat.not_lt_zero _)
  | cons action during ih =>
      rw [Machine.run_cons]
      cases action with
      | firmware action =>
          obtain ⟨still, silent⟩ :=
            @servedStep_busy undefined parse print served reader busy action
          rw [List.countP_cons_of_neg Bool.false_ne_true] at enough
          rw [← silent]
          exact ih still enough
      | exporter =>
          rw [List.countP_cons_of_pos rfl] at enough
          by_cases ended : reader.todo = []
          · have grown := @served_run_replies undefined parse print
              (servedStep undefined parse print served .exporter) during
            rw [servedStep, exportStep_ended busy ended] at grown
            obtain ⟨more, whole⟩ := grown
            refine ⟨exportReply print reader.taken, more, ?_⟩
            rw [servedStep, exportStep_ended busy ended, ← whole, List.append_assoc]
            rfl
          · rw [servedStep, exportStep_going busy ended]
            have fewer : (reader.advance (shownRecords served)).todo.length <
                during.countP ServedAction.isExporter := by
              rw [Reader.advance]
              cases left : reader.todo with
              | nil => exact absurd left ended
              | cons key todo =>
                  rw [left, List.length_cons] at enough
                  exact Nat.lt_of_succ_lt_succ enough
            exact ih rfl fewer

/-- The records of an export are those of the caches at its moments. -/
theorem export_sampled (begun : served.exporting = some beginExport)
    {during : List ServedAction}
    (enough : exportPlan.length < during.countP ServedAction.isExporter) :
    ∃ taken more moments,
      (Machine.run (servedStep undefined parse print) served during).replies =
        served.replies ++ exportReply print taken :: more ∧
      Sampled (servedStep undefined parse print) shownRecords served during taken exportPlan
        moments := by
  obtain ⟨reply, more, answered⟩ := @export_replies undefined parse print _ _ begun _ enough
  obtain ⟨done, later, split, moves, ended, said⟩ := export_answered begun answered
  have start : exportReader served = beginExport := by rw [exportReader, begun]; rfl
  have distinct : (exportReader served).todo.Nodup := by
    rw [start]
    exact exportPlan_nodup
  obtain ⟨moments, sampled⟩ := run_takes_all moves distinct ended
  rw [start] at sampled
  rw [said] at answered
  exact ⟨_, more, moments, answered, split ▸ sampled.extend _⟩

/-- Whatever the other tasks do, an export replies with a valid configuration, each record
of it the one the cache held at its own moment, the moments in the order of the getters. -/
theorem export_mixes (ready : served.firmware.system.manager.initialised = true)
    (begun : served.exporting = some beginExport) {during : List ServedAction}
    (enough : exportPlan.length < during.countP ServedAction.isExporter) :
    ∃ (cache : ConfigCache) (more : List (List UInt8)) (moments : List Nat),
      (Machine.run (servedStep undefined parse print) served during).replies =
        served.replies ++
          uartSimHandleGet print { served.firmware.system.manager with cache } :: more ∧
      moments.Pairwise (· < ·) ∧ (∀ moment ∈ moments, moment < during.length) ∧
      List.Forall₂ (fun key moment => cache.get key =
          (servedAt undefined parse print served during moment).cache.get key)
        exportPlan moments ∧
      (served.firmware.cache.Valid → cache.Valid) := by
  obtain ⟨taken, more, moments, answered, sampled⟩ :=
    @export_sampled undefined parse print _ begun _ enough
  have kept := fun moment => @kept_run undefined parse print served ready (during.take moment)
  have seen : ∀ {key moment},
      TakenAt (servedStep undefined parse print) shownRecords served during taken key moment →
        taken key = some
          ((servedAt undefined parse print served during moment).cache.get key) :=
    fun {key moment} there => there.trans (getRecords_ready (kept moment).ready key)
  choose moment _ there using fun key => sampled.moment (mem_exportPlan key)
  obtain ⟨cache, made⟩ := exists_cache fun key =>
    (servedAt undefined parse print served during (moment key)).cache.get key
  have whole : ∀ key, taken key = some (cache.get key) := by
    intro key
    rw [made key]
    exact seen (there key)
  have same : taken = getRecords { served.firmware.system.manager with cache } := by
    have mixed : ({ served.firmware.system.manager with cache } : Manager).initialised = true :=
      ready
    funext key
    rw [whole key]
    exact (getRecords_ready mixed key).symm
  refine ⟨cache, more, moments, ?_, sampled.ordered, sampled.within, ?_, fun valid key => ?_⟩
  · rw [answered, uartSimHandleGet_gotten, ← same]
  · refine sampled.taken.imp fun key moment there => ?_
    exact Option.some.inj ((whole key).symm.trans (seen there))
  · rw [made key]
    exact (kept (moment key)).valid valid key

end Exports

/-! An export with two stores behind its first getter. -/

def storingStep : ServedFirmware → ServedAction → ServedFirmware :=
  servedStep (fun _ => int32Min) nodeParse cJsonPrint

/-- A client has asked for the configuration. -/
def askedFirmware : ServedFirmware :=
  storingStep ⟨.boot (.boot .powerUp), none, []⟩
    (.firmware (.connect [.data (ascii "AT+GET_CONFIG\n")]))

theorem askedFirmware_begun :
    askedFirmware = ⟨.boot (.boot .powerUp), some beginExport, []⟩ := by
  have dispatched : uartSimDispatch (uartSimReceive [] [.data (ascii "AT+GET_CONFIG\n")]) =
      some .getConfig := by
    decide +kernel
  rw [askedFirmware, storingStep, servedStep, servedConnect]
  dsimp only [Firmware.boot]
  rw [dispatched]

theorem askedFirmware_ready : askedFirmware.firmware.system.manager.initialised = true := by
  rw [askedFirmware_begun]
  exact (@booted_boot .powerUp rfl (Nat.two_pow_pos 32)).2.refines.ready

def systemStore : ServedAction := .firmware (.call (.set 0 .system 0 (some committedRecord)))

def mixingActions : List ServedAction :=
  [.exporter, systemStore, .firmware (.call (.set 1 .di 0 (some diDefault)))] ++
    List.replicate 57 .exporter

theorem export_mixes_stores :
    ∃ (cache : ConfigCache) (more : List (List UInt8)) (moments : List Nat),
      (Machine.run storingStep askedFirmware mixingActions).replies =
        askedFirmware.replies ++ uartSimHandleGet cJsonPrint
          { askedFirmware.firmware.system.manager with cache } :: more ∧
      moments.Pairwise (· < ·) ∧ (∀ moment ∈ moments, moment < mixingActions.length) ∧
      List.Forall₂ (fun key moment => cache.get key =
          (servedAt (fun _ => int32Min) nodeParse cJsonPrint askedFirmware mixingActions
            moment).cache.get key)
        exportPlan moments ∧
      (askedFirmware.firmware.cache.Valid → cache.Valid) :=
  export_mixes askedFirmware_ready (by rw [askedFirmware_begun]) (by decide)

section Exports

variable {undefined : Rat → Int32} {parse : List UInt8 → Option Json}
  {print : Json → Option (List UInt8)} {served : ServedFirmware}

/-- An export during which the other tasks change at most one record replies with the
configuration of one moment. -/
theorem export_whole (ready : served.firmware.system.manager.initialised = true)
    (begun : served.exporting = some beginExport) {during : List ServedAction}
    (enough : exportPlan.length < during.countP ServedAction.isExporter) {sole : RecordKey}
    (still : ∀ moment, moment ≤ during.length → ∀ key, key ≠ sole →
      (servedAt undefined parse print served during moment).cache.get key =
        served.firmware.cache.get key) :
    ∃ more, ∃ moment ≤ during.length,
      (Machine.run (servedStep undefined parse print) served during).replies =
        served.replies ++ uartSimHandleGet print
          (servedAt undefined parse print served during moment).system.manager :: more := by
  obtain ⟨taken, more, moments, answered, sampled⟩ :=
    @export_sampled undefined parse print _ begun _ enough
  have unchanged : ∀ moment, moment ≤ during.length → ∀ key, key ≠ sole →
      shownRecords (Machine.run (servedStep undefined parse print) served
        (during.take moment)) key = shownRecords served key := by
    intro moment inside key other
    have kept := @kept_run undefined parse print served ready (during.take moment)
    have same := still moment inside key other
    rw [shownRecords, shownRecords, getRecords_ready kept.ready, getRecords_ready ready]
    exact congrArg some same
  obtain ⟨moment, inside, there⟩ := sampled.single sole unchanged
  have same : taken = shownRecords (Machine.run (servedStep undefined parse print) served
      (during.take moment)) := funext fun key => there key (mem_exportPlan key)
  refine ⟨more, moment, inside, ?_⟩
  rw [answered, same, uartSimHandleGet_gotten]
  rfl

end Exports

/-! An export with one store. -/

def wholeActions : List ServedAction :=
  [.exporter, systemStore] ++ List.replicate 57 .exporter

/-- A step of the export, or a store to the system record. -/
def ServedAction.sparing (action : ServedAction) : Prop :=
  action = .exporter ∨ action = systemStore

theorem storingStep_spares {served : ServedFirmware}
    (ready : served.firmware.system.manager.initialised = true) {action : ServedAction}
    (sparing : action.sparing) {key : RecordKey} (other : key ≠ systemKey) :
    (storingStep served action).firmware.cache.get key = served.firmware.cache.get key := by
  rcases sparing with rfl | rfl
  · rw [storingStep, servedStep]
    cases busy : served.exporting with
    | none => rw [exportStep, busy]
    | some reader =>
        by_cases ended : reader.todo = []
        · rw [exportStep_ended busy ended]
        · rw [exportStep_going busy ended]
  · have stored : configSetRecord .system served.firmware.system.manager (requestIndex .system 0)
        (some committedRecord) = _ :=
      configSetRecord_channel ready systemKey.index committedRecord
    have called : (storingStep served systemStore).firmware.system =
        (served.firmware.system.setStep (some 0) .system (requestIndex .system 0)
          (some committedRecord)).2 := rfl
    rw [Firmware.cache, called, EepromSystem.setStep]
    rw [stored]
    split_ifs
    · exact ConfigCache.get_set_other _ _ other
    · rfl

theorem wholeActions_sparing : ∀ action ∈ wholeActions, action.sparing := by
  intro action listed
  rw [wholeActions, List.mem_append] at listed
  rcases listed with first | rest
  · rcases List.mem_cons.mp first with rfl | second
    · exact .inl rfl
    · exact .inr (List.mem_singleton.mp second)
  · exact .inl (List.eq_of_mem_replicate rest)

theorem wholeActions_still (moment : Nat) {key : RecordKey} (other : key ≠ systemKey) :
    (servedAt (fun _ => int32Min) nodeParse cJsonPrint askedFirmware wholeActions
      moment).cache.get key = askedFirmware.firmware.cache.get key := by
  have kept : ∀ served action, action.sparing →
      (served.firmware.system.manager.initialised = true ∧
        served.firmware.cache.get key = askedFirmware.firmware.cache.get key) →
      ((storingStep served action).firmware.system.manager.initialised = true ∧
        (storingStep served action).firmware.cache.get key =
          askedFirmware.firmware.cache.get key) := by
    intro served action sparing before
    exact ⟨(kept_run before.1 [action]).ready,
      (storingStep_spares before.1 sparing other).trans before.2⟩
  exact (@Machine.run_invariant _ _ storingStep _ ServedAction.sparing askedFirmware
    ⟨askedFirmware_ready, rfl⟩ kept (wholeActions.take moment)
    fun action listed => wholeActions_sparing action (List.mem_of_mem_take listed)).2

theorem export_whole_store :
    ∃ more, ∃ moment ≤ wholeActions.length,
      (Machine.run storingStep askedFirmware wholeActions).replies =
        askedFirmware.replies ++ uartSimHandleGet cJsonPrint
          (servedAt (fun _ => int32Min) nodeParse cJsonPrint askedFirmware wholeActions
            moment).system.manager :: more :=
  export_whole askedFirmware_ready (by rw [askedFirmware_begun]) (by decide)
    (fun moment _ _ other => wholeActions_still moment other)

end ConfigWp
