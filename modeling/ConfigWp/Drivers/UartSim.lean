import ConfigWp.Application.ConfigExport
import ConfigWp.Application.EepromTask
import Mathlib.Data.List.DropRight

/-! The AT driver `drivers/uart_sim.c`: one TCP connection carries one command frame.
The sockets are left out but for the answers of `recv`, and a reply is the bytes sent;
every send reaches the peer. The console lines are left out. -/

set_option autoImplicit false

namespace ConfigWp

def uartSimRxBufBytes : Nat := 16384

def uartSimTxBufBytes : Nat := 16384

/-- The size of `cmd` in `uart_sim_task`. -/
def uartSimCmdBytes : Nat := 64

/-! Receiving a frame. -/

/-- The answer of one `recv`; no data mean that the peer has closed its side. -/
inductive Recv where
  | data (bytes : List UInt8)
  | interrupted
  | failed

/-- The receive loop of `uart_sim_task`, with `rx` already received. One byte of the
buffer is kept for the final zero. -/
def uartSimReceive (rx : List UInt8) : List Recv → List UInt8
  | [] => rx
  | .data bytes :: answers =>
      let cap := uartSimRxBufBytes - 1
      let arrived := bytes.take (cap - rx.length)
      if arrived = [] then rx
      else if rx.length + arrived.length ≥ cap then rx ++ arrived
      else uartSimReceive (rx ++ arrived) answers
  | .interrupted :: answers => uartSimReceive rx answers
  | .failed :: _ => rx

/-! The command line. -/

def isBlank (byte : UInt8) : Bool := byte == 0x20 || byte == 0x09

def isLineEnd (byte : UInt8) : Bool := byte == 0x0A || byte == 0x0D

/-- `toupper` in the C locale. -/
def toUpper (byte : UInt8) : UInt8 :=
  if 0x61 ≤ byte ∧ byte ≤ 0x7A then byte - 0x20 else byte

/-- The copying loop: what stands in `out` behind it, and what it leaves unread. -/
def copyLine (outCap : Nat) : List UInt8 → List UInt8 → List UInt8 × List UInt8
  | out, [] => (out, [])
  | out, byte :: rest =>
      if isLineEnd byte then (out, byte :: rest)
      else copyLine outCap (if out.length + 1 < outCap then out ++ [toUpper byte] else out) rest

def skipByte (byte : UInt8) : List UInt8 → List UInt8
  | [] => []
  | head :: rest => if head = byte then rest else head :: rest

/-- `uart_sim_extract_cmd`: what stands in `out`, without the final zero, and the number
of bytes consumed. -/
def uartSimExtractCmd (buf : List UInt8) (outCap : Nat) : List UInt8 × Nat :=
  let (out, rest) := copyLine outCap [] (buf.dropWhile isBlank)
  let rest := skipByte 0x0A (skipByte 0x0D rest)
  (out.rdropWhile isBlank, buf.length - rest.length)

/-! Dispatch. -/

inductive UartCommand where
  | getConfig
  | setConfig (payload : List UInt8)
  | ping
  | unknown
  deriving DecidableEq, Repr

/-- The branch that `uart_sim_task` takes on a frame; an empty one is closed at once. -/
def uartSimDispatch (rx : List UInt8) : Option UartCommand :=
  if rx = [] then none
  else
    let (cmd, hdrLen) := uartSimExtractCmd rx uartSimCmdBytes
    if strEq cmd "AT+GET_CONFIG" then some .getConfig
    else if strEq cmd "AT+SET_CONFIG" then some (.setConfig (rx.drop hdrLen))
    else if strEq cmd "AT" then some .ping
    else some .unknown

/-! The handlers. -/

/-- `config_print_status` of an error. -/
def configPrintStatus : ConfigStatus → String
  | .errNotInitialised => "ERR_NOT_INITIALISED"
  | .errIndex => "ERR_INDEX"
  | .errInvalid => "ERR_INVALID"
  | .errStorage => "ERR_STORAGE"
  | .errCodec => "ERR_CODEC"
  | .errTooLarge => "ERR_TOO_LARGE"
  | .errInternal => "ERR_INTERNAL"

/-- What the driver works on: the manager, and the request queue once it exists. -/
structure UartHost where
  manager : Manager
  queue : Option (List EepromRequest)

/-- `QueueConfigCommit`. -/
def UartHost.queueCommit (host : UartHost) : Bool × UartHost :=
  match host.queue with
  | none => (false, host)
  | some queue =>
      match xQueueSend queue .commit with
      | none => (false, host)
      | some queue => (true, { host with queue := some queue })

section Serve

variable (print : Json → Option (List UInt8)) (undefined : Rat → Int32)
  (parse : List UInt8 → Option Json)

def uartSimHandleGet (m : Manager) : List UInt8 :=
  match configExportJson print (some uartSimTxBufBytes) m with
  | .error status => ascii ("ERROR: export failed (" ++ configPrintStatus status ++ ")\n")
  | .ok text => text ++ ascii "\nOK\n"

/-- The reply to an import that failed. -/
def importFailed (status : ConfigStatus) (rep : ImportReport) : String :=
  "ERROR: import failed (" ++ configPrintStatus status ++ ")" ++
    (if rep.firstError ≠ "" then ": " else "") ++ rep.firstError ++ "\n"

/-- The reply to an import that succeeded. -/
def importReply (rep : ImportReport) (queued : Bool) : String :=
  "OK accepted=" ++ toString rep.accepted.toNat ++ " rejected=" ++ toString rep.rejected.toNat ++
    " unknown_keys=" ++ toString rep.unknownKeys.toNat ++
    " persist=" ++ (if queued then "queued" else "FAIL") ++ "\n"

def uartSimHandleSet (payload : List UInt8) (host : UartHost) : List UInt8 × UartHost :=
  if payload = [] then (ascii "ERROR: missing JSON payload\n", host)
  else
    match configImportJson undefined parse (some payload) host.manager with
    | (.error status, done) =>
        (ascii (importFailed status done.report), { host with manager := done.manager })
    | (.ok (), done) =>
        let (queued, host) := UartHost.queueCommit { host with manager := done.manager }
        (ascii (importReply done.report queued), host)

/-- One connection of `uart_sim_task`: the reply, and what it leaves behind. -/
def uartSimServe (host : UartHost) (answers : List Recv) : List UInt8 × UartHost :=
  match uartSimDispatch (uartSimReceive [] answers) with
  | none => ([], host)
  | some .getConfig => (uartSimHandleGet print host.manager, host)
  | some (.setConfig payload) => uartSimHandleSet undefined parse payload host
  | some .ping => (ascii "OK\n", host)
  | some .unknown => (ascii "ERROR: unknown command\n", host)

/-- `uart_sim_task` over the connections that it accepts. -/
def uartSimTask (host : UartHost) (connections : List (List Recv)) : UartHost :=
  connections.foldl (fun host answers => (uartSimServe print undefined parse host answers).2) host

end Serve

end ConfigWp
