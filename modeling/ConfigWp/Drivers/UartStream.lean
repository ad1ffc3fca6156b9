import ConfigWp.Application.ExportRoundTrip
import ConfigWp.Drivers.UartDispatch

/-! What the peers of the AT driver can do. A connection is worth the bytes that arrive
before it ends, however the network cuts them, and a run of connections stores validated
records, touches no preserved one, and queues commits, one for each configuration that is
sent. -/

set_option autoImplicit false

namespace ConfigWp

/-- The bytes that `recv` answers with before the frame ends. -/
def arrivedBytes : List Recv → List UInt8
  | [] => []
  | .data bytes :: answers => if bytes = [] then [] else bytes ++ arrivedBytes answers
  | .interrupted :: answers => arrivedBytes answers
  | .failed :: _ => []

/-- The frame of a connection: what fits the receive buffer. -/
def arrivedFrame (answers : List Recv) : List UInt8 :=
  (arrivedBytes answers).take (uartSimRxBufBytes - 1)

theorem uartSimReceive_eq (rx : List UInt8) (answers : List Recv)
    (room : rx.length < uartSimRxBufBytes - 1) :
    uartSimReceive rx answers =
      rx ++ (arrivedBytes answers).take (uartSimRxBufBytes - 1 - rx.length) := by
  induction answers generalizing rx with
  | nil => simp [uartSimReceive, arrivedBytes]
  | cons answer answers ih =>
      cases answer with
      | interrupted => exact ih rx room
      | failed => simp [uartSimReceive, arrivedBytes]
      | data bytes =>
          rw [uartSimReceive, arrivedBytes]
          by_cases closed : bytes = []
          · simp [closed]
          · have stays : bytes.take (uartSimRxBufBytes - 1 - rx.length) ≠ [] := by
              rw [Ne, List.take_eq_nil_iff, not_or]
              exact ⟨by omega, closed⟩
            rw [if_neg stays, if_neg closed, List.take_append]
            split_ifs with full
            · have covered : uartSimRxBufBytes - 1 - rx.length - bytes.length = 0 := by
                rw [List.length_take] at full
                omega
              rw [covered, List.take_zero, List.append_nil]
            · have whole : bytes.take (uartSimRxBufBytes - 1 - rx.length) = bytes := by
                rw [List.length_take] at full
                exact List.take_of_length_le (by omega)
              rw [whole] at full ⊢
              rw [ih _ (by rw [List.length_append]; omega), List.append_assoc, List.length_append,
                Nat.sub_add_eq (uartSimRxBufBytes - 1)]

theorem length_arrivedFrame (answers : List Recv) :
    (arrivedFrame answers).length ≤ uartSimRxBufBytes - 1 := by
  rw [arrivedFrame, List.length_take]
  exact Nat.min_le_left _ _

theorem uartSimReceive_arrived (answers : List Recv) :
    uartSimReceive [] answers = arrivedFrame answers := by
  rw [uartSimReceive_eq [] answers (by decide)]
  rfl

section Serve

variable (print : Json → Option (List UInt8)) (undefined : Rat → Int32)
  (parse : List UInt8 → Option Json)

theorem uartSimServe_arrived (host : UartHost) (answers : List Recv) :
    uartSimServe print undefined parse host answers =
      uartSimServe print undefined parse host [.data (arrivedFrame answers)] := by
  rw [uartSimServe, uartSimServe, uartSimReceive_arrived,
    uartSimReceive_frame (length_arrivedFrame answers)]

/-- Segments, interruptions and failures of the network do not show: every reply, and
whatever a run of connections leaves behind, is that of the frames that arrived. -/
theorem uartSimTask_stream (host : UartHost) (connections : List (List Recv)) :
    uartSimTask print undefined parse host connections =
        uartSimTask print undefined parse host
          (connections.map fun answers => [.data (arrivedFrame answers)]) ∧
      ∀ earlier answers later, connections = earlier ++ answers :: later →
        (uartSimServe print undefined parse
            (uartSimTask print undefined parse host earlier) answers).1 =
          (uartSimServe print undefined parse
            (uartSimTask print undefined parse host
              (earlier.map fun answers => [.data (arrivedFrame answers)]))
            [.data (arrivedFrame answers)]).1 := by
  have framed : ∀ connections, uartSimTask print undefined parse host connections =
      uartSimTask print undefined parse host
        (connections.map fun answers => [.data (arrivedFrame answers)]) := by
    intro connections
    rw [uartSimTask, uartSimTask, List.foldl_map]
    congr
    funext host answers
    rw [uartSimServe_arrived]
  refine ⟨framed connections, fun earlier answers later _ => ?_⟩
  rw [framed earlier, uartSimServe_arrived]

/-- A connection that sends a configuration. -/
def sendsConfig (answers : List Recv) : Bool :=
  match uartSimDispatch (uartSimReceive [] answers) with
  | some (.setConfig _) => true
  | _ => false

theorem queueCommit_queue (host : UartHost) {queue : List EepromRequest}
    (created : host.queue = some queue) :
    host.queueCommit.2.queue = some queue ∨
      host.queueCommit.2.queue = some (queue ++ [.commit]) := by
  rw [UartHost.queueCommit, created]
  dsimp only
  rw [xQueueSend]
  split_ifs
  · exact .inr rfl
  · exact .inl created

theorem uartSimHandleSet_queue (payload : List UInt8) {host : UartHost}
    {queue : List EepromRequest} (created : host.queue = some queue) :
    (uartSimHandleSet undefined parse payload host).2.queue = some queue ∨
      (uartSimHandleSet undefined parse payload host).2.queue = some (queue ++ [.commit]) := by
  rw [uartSimHandleSet]
  split_ifs
  · exact .inl created
  · generalize configImportJson undefined parse (some payload) host.manager = outcome
    rcases outcome with ⟨status | done, state⟩
    · exact .inl created
    · exact queueCommit_queue { host with manager := state.manager } created

/-- One connection queues a commit at most, and only if it sends a configuration. -/
theorem uartSimServe_queue {host : UartHost} {queue : List EepromRequest}
    (created : host.queue = some queue) (answers : List Recv) :
    ∃ commits ≤ [answers].countP sendsConfig,
      (uartSimServe print undefined parse host answers).2.queue =
        some (queue ++ List.replicate commits .commit) := by
  cases sends : sendsConfig answers with
  | false =>
      have idle := @uartSimServe_idle print undefined parse host answers fun payload command => by
        rw [sendsConfig, command] at sends
        cases sends
      exact ⟨0, Nat.zero_le _, by rw [idle, created, List.replicate_zero, List.append_nil]⟩
  | true =>
      have once : [answers].countP sendsConfig = 1 := by simp [sends]
      rw [sendsConfig] at sends
      rw [once, uartSimServe]
      generalize uartSimDispatch (uartSimReceive [] answers) = branch at sends ⊢
      rcases branch with _ | (_ | payload | _ | _)
      · cases sends
      · cases sends
      · rcases uartSimHandleSet_queue undefined parse payload created with kept | grown
        · exact ⟨0, Nat.zero_le _, by simpa using kept⟩
        · exact ⟨1, Nat.le_refl _, grown⟩
      · cases sends
      · cases sends

theorem uartSimTask_queue {host : UartHost} {queue : List EepromRequest}
    (created : host.queue = some queue) (connections : List (List Recv)) :
    ∃ commits ≤ connections.countP sendsConfig,
      (uartSimTask print undefined parse host connections).queue =
        some (queue ++ List.replicate commits .commit) := by
  induction connections generalizing host queue with
  | nil => exact ⟨0, Nat.le_refl _, by rwa [List.replicate_zero, List.append_nil]⟩
  | cons answers connections ih =>
      obtain ⟨now, few, served⟩ := uartSimServe_queue print undefined parse created answers
      obtain ⟨later, bound, reached⟩ := ih served
      refine ⟨now + later, ?_, ?_⟩
      · rw [List.countP_cons, Nat.add_comm]
        rw [List.countP_singleton] at few
        exact Nat.add_le_add bound few
      · rw [uartSimTask, List.foldl_cons]
        rw [List.append_assoc, List.replicate_append_replicate] at reached
        exact reached

/-- Whatever the peers send, the records of a ready manager stay valid, the preserved
records stay as they are, and the queue grows by commits only, one at most for each
connection that sends a configuration. -/
theorem uartSimTask_bounded {host : UartHost} (checked : host.manager.Checked)
    {queue : List EepromRequest} (created : host.queue = some queue)
    (connections : List (List Recv)) :
    (uartSimTask print undefined parse host connections).manager.Checked ∧
      (uartSimTask print undefined parse host connections).manager.unknown =
        host.manager.unknown ∧
      ∃ commits ≤ connections.countP sendsConfig,
        (uartSimTask print undefined parse host connections).queue =
          some (queue ++ List.replicate commits .commit) :=
  have run := uartSimTask_run print undefined parse host connections
  ⟨run.checked checked, run.frame.1, uartSimTask_queue print undefined parse created connections⟩

end Serve

/-! A ready manager that preserves a record, and a peer that sends it a node id. -/

def preservingHost : UartHost :=
  ⟨{ Manager.atDefaults with
      unknown := preserveUnknownLocked Manager.powerUp.unknown 0x0700 [1, 2, 3] }, some []⟩

/-- A ping, a configuration in three segments, and one that is broken off. -/
def peerConnections : List (List Recv) :=
  [[.data (ascii "AT")],
    [.data (ascii "AT+SET_"), .interrupted, .data (ascii "CONFIG\n"), .data (nodeIdText "5")],
    [.data (ascii "AT+SET_CONFIG\n\x7b"), .failed]]

def peerTask : UartHost :=
  uartSimTask cJsonPrint (fun _ => int32Min) (parseOnly (nodeIdText "5") (nodeIdDocument 5))
    preservingHost peerConnections

/-- The second connection stores its node id and queues the commit. -/
theorem uartSimTask_bounded_node :
    (peerTask.manager.cache.system.canopenNodeId = 5 ∧ peerTask.queue = some [.commit]) ∧
      preservingHost.manager.unknown.used = 7 ∧
      peerTask.manager.Checked ∧ peerTask.manager.unknown = preservingHost.manager.unknown ∧
      ∃ commits ≤ peerConnections.countP sendsConfig,
        peerTask.queue = some ([] ++ List.replicate commits .commit) :=
  ⟨by decide +kernel, by decide +kernel,
    @uartSimTask_bounded cJsonPrint (fun _ => int32Min)
      (parseOnly (nodeIdText "5") (nodeIdDocument 5)) preservingHost
      (fun _ => ConfigCache.valid_defaults) [] rfl peerConnections⟩

end ConfigWp
