import ConfigWp.Application.FieldWrites

/-! Runs of whole client calls on a valid configuration, each finished before the next one
begins. Whatever the calls and their order, a field ends with the last value written to it,
so calls that write different fields do not notice each other. -/

set_option autoImplicit false

namespace ConfigWp

open Writes

/-- The writes of a client call, whatever configuration it meets. -/
def callWrites : ClientCall → List FieldWrite
  | .config (.set domain idx input) => setWrites domain idx input
  | .config .resetDefaults => resetWrites
  | .config _ => []
  | .importJson undefined parse json => importWrites undefined parse json
  | .request request => requestWrites request

/-- Every call but `config_deinit`. -/
def ClientCall.Running : ClientCall → Prop
  | .config .deinit => False
  | _ => True

/-- A call that writes a field. -/
def ClientCall.writesTo (place : FieldPlace) (call : ClientCall) : Bool :=
  (final place (callWrites call)).isSome

structure Device.Live (device : Device) : Prop where
  ready : device.manager.initialised = true
  valid : device.manager.cache.Valid

theorem SetterRun.live {storage : Storage} {m next : Manager} (run : SetterRun m next)
    (live : Device.Live ⟨storage, m⟩) : Device.Live ⟨storage, next⟩ := by
  have ready : next.initialised = true := run.frame.2.trans live.ready
  exact ⟨ready, run.checked (fun _ => live.valid) ready⟩

theorem Device.Live.step (device : Device) (call : ClientCall) (running : call.Running)
    (live : device.Live) : (clientCall device call).Live := by
  cases call with
  | config call =>
      cases call with
      | init lockCreated faults =>
          rw [clientCall, configCall, configInit_skipped faults device.storage (.inl live.ready)]
          exact live
      | deinit => exact running.elim
      | set domain idx input => exact (configSet_run device.manager domain idx input).live live
      | resetDefaults =>
          rw [clientCall, configCall, configResetDefaults, if_neg (by simp [live.ready])]
          exact ⟨live.ready, ConfigCache.valid_defaults⟩
      | save faults =>
          obtain ⟨cache, -, kept⟩ := configSave_keeps faults device.storage device.manager
          exact ⟨kept.trans live.ready, cache.symm ▸ live.valid⟩
  | importJson undefined parse json =>
      exact (configImportJson_run undefined parse json device.manager).live live
  | request request => exact (processRequest_run device.manager request).live live

theorem clientCall_turns (device : Device) (call : ClientCall) (running : call.Running)
    (live : device.Live) :
    Turns device.manager.cache.field (callWrites call)
      (clientCall device call).manager.cache.field := by
  cases call with
  | config call =>
      cases call with
      | init lockCreated faults =>
          rw [clientCall, configCall, configInit_skipped faults device.storage (.inl live.ready)]
          exact turns_nil _
      | deinit => exact running.elim
      | set domain idx input => exact configSet_turns live.ready domain idx input
      | resetDefaults =>
          rw [clientCall, configCall, configResetDefaults, if_neg (by simp [live.ready])]
          exact resetDefaults_turns device.manager.cache
      | save faults =>
          obtain ⟨cache, -⟩ := configSave_keeps faults device.storage device.manager
          rw [clientCall, configCall, cache]
          exact turns_nil _
  | importJson undefined parse json => exact configImportJson_turns live.ready live.valid parse json
  | request request => exact processRequest_turns live.ready live.valid request

theorem clientRun_turns {device : Device} (live : device.Live) {calls : List ClientCall}
    (running : ∀ call ∈ calls, call.Running) :
    Turns device.manager.cache.field (calls.flatMap callWrites)
      (Machine.run clientCall device calls).manager.cache.field :=
  turns_run Device.Live.step clientCall_turns live running

/-- After any run of calls a field of the configuration holds what was last written to it,
or what it held before. -/
theorem clientRun_fields {device : Device} (ready : device.manager.initialised = true)
    (valid : device.manager.cache.Valid) {calls : List ClientCall}
    (running : ∀ call ∈ calls, call.Running) (place : FieldPlace) :
    (Machine.run clientCall device calls).manager.cache.field place =
      (final place (calls.flatMap callWrites)).getD (device.manager.cache.field place) :=
  clientRun_turns ⟨ready, valid⟩ running place

/-- The place of the node id, and requests that change it and the heartbeat. -/
def nodePlace : FieldPlace := ⟨.system, .canopenNodeId⟩

def nodeRequest (node : UInt8) : ClientCall := .request (.field 7 0 0 ⟨.ofBytes [node]⟩)

def heartbeatRequest (low : UInt8) : ClientCall := .request (.field 7 0 2 ⟨.ofBytes [low]⟩)

/-- The last node id that is in range stays. -/
theorem clientRun_fields_node :
    (Machine.run clientCall ⟨storageInit, .atDefaults⟩
      [nodeRequest 5, heartbeatRequest 9, nodeRequest 6, nodeRequest 200]).manager.cache.field
        nodePlace = .number 6 :=
  (@clientRun_fields ⟨storageInit, .atDefaults⟩ rfl ConfigCache.valid_defaults
    [nodeRequest 5, heartbeatRequest 9, nodeRequest 6, nodeRequest 200]
    (by simp [nodeRequest, heartbeatRequest, ClientCall.Running]) nodePlace).trans
    (by decide +kernel)

/-- Between two runs of whole calls, the calls that write a field must keep their order;
calls that write different fields may change theirs. -/
theorem clientRuns_agree {device : Device} (ready : device.manager.initialised = true)
    (valid : device.manager.cache.Valid) {calls others : List ClientCall}
    (running : ∀ call ∈ calls, call.Running) (alike : ∀ call ∈ others, call.Running)
    (ordered : ∀ place, calls.filter (·.writesTo place) = others.filter (·.writesTo place)) :
    (Machine.run clientCall device calls).manager.cache =
      (Machine.run clientCall device others).manager.cache := by
  have left := @clientRun_turns device ⟨ready, valid⟩ calls running
  have right := @clientRun_turns device ⟨ready, valid⟩ others alike
  refine ConfigCache.field_ext (left.agree right fun place => ?_)
  have same := congrArg (fun calls => final place (calls.flatMap callWrites)) (ordered place)
  dsimp only [ClientCall.writesTo] at same
  rwa [final_flatMap_filter, final_flatMap_filter] at same

theorem quiet_of_apart {call : ClientCall} {write : FieldWrite} {place : FieldPlace}
    (writes : callWrites call = [write]) (apart : write.place ≠ place) :
    call.writesTo place = false := by
  have unwritten : final place (callWrites call) = none := by
    rw [writes]
    exact final_eq_none_iff.mpr fun other listed => List.mem_singleton.mp listed ▸ apart
  rw [ClientCall.writesTo, unwritten, Option.isSome_none]

theorem clientRuns_agree_swapped :
    (Machine.run clientCall ⟨storageInit, .atDefaults⟩
      [nodeRequest 5, heartbeatRequest 9]).manager.cache =
      (Machine.run clientCall ⟨storageInit, .atDefaults⟩
        [heartbeatRequest 9, nodeRequest 5]).manager.cache := by
  have node : callWrites (nodeRequest 5) = [⟨nodePlace, .number 5⟩] := by decide +kernel
  have heartbeat : callWrites (heartbeatRequest 9) =
      [⟨⟨.system, .heartbeatMs⟩, .number 9⟩] := by decide +kernel
  have running : ∀ call ∈ [nodeRequest 5, heartbeatRequest 9], call.Running := by
    simp [nodeRequest, heartbeatRequest, ClientCall.Running]
  refine @clientRuns_agree ⟨storageInit, .atDefaults⟩ rfl ConfigCache.valid_defaults _ _ running
    (by simpa [and_comm] using running) fun place => ?_
  by_cases here : nodePlace = place
  · have elsewhere : (⟨.system, .heartbeatMs⟩ : FieldPlace) ≠ place := by
      rw [← here]
      decide
    simp [List.filter_cons, quiet_of_apart heartbeat elsewhere]
  · simp [List.filter_cons, quiet_of_apart node here]

/-- Importing a text a second time changes nothing, unless what it wrote was written again
in between. -/
theorem import_again {device : Device} (ready : device.manager.initialised = true)
    (valid : device.manager.cache.Valid) (undefined : Rat → Int32)
    (parse : List UInt8 → Option Json) (json : Option (List UInt8)) {calls : List ClientCall}
    (running : ∀ call ∈ calls, call.Running)
    (apart : ∀ write ∈ importWrites undefined parse json, ∀ call ∈ calls,
      call.writesTo write.place = false) {there : Device}
    (reached : there =
      Machine.run clientCall device (.importJson undefined parse json :: calls)) :
    (clientCall there (.importJson undefined parse json)).manager.cache = there.manager.cache := by
  have live : device.Live := ⟨ready, valid⟩
  have first := clientCall_turns device (.importJson undefined parse json) trivial live
  have held := Device.Live.step device (.importJson undefined parse json) trivial live
  have between := clientRun_turns held running
  rw [← Machine.run_cons clientCall, ← reached] at between
  have still : there.Live := by
    rw [reached, Machine.run_cons]
    exact Machine.run_invariant clientCall held Device.Live.step running
  have second := clientCall_turns there (.importJson undefined parse json) trivial still
  refine ConfigCache.field_ext (first.again between second fun write listed other member same => ?_)
  obtain ⟨call, called, inside⟩ := List.mem_flatMap.mp member
  have untouched := apart write listed call called
  rw [ClientCall.writesTo, Option.isSome_eq_false_iff, Option.isNone_iff_eq_none,
    final_eq_none_iff] at untouched
  exact untouched other inside same

def nodeText : ClientCall :=
  .importJson (fun _ => int32Min) (parseOnly (nodeIdText "5") (nodeIdDocument 5))
    (some (nodeIdText "5"))

theorem import_again_saved :
    (clientCall (Machine.run clientCall ⟨storageInit, .atDefaults⟩
      [nodeText, .config (.save .none)]) nodeText).manager.cache =
      (Machine.run clientCall ⟨storageInit, .atDefaults⟩
        [nodeText, .config (.save .none)]).manager.cache :=
  import_again rfl ConfigCache.valid_defaults _ _ _ (by simp [ClientCall.Running])
    (by simp [ClientCall.writesTo, callWrites]) rfl

end ConfigWp
