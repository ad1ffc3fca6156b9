import ConfigWp.Drivers.UartSim
import ConfigWp.Application.Validity
import ConfigWp.Library.KeywordScan

/-! Which frames run which handler. The driver cuts the first line to its command buffer
before it trims it, and compares it as a C string, so it finds every command line, and
takes for one two kinds of line that are none. -/

set_option autoImplicit false

namespace ConfigWp

open KeywordScan

/-! The wire contract. -/

def firstLine (frame : List UInt8) : List UInt8 := frame.takeWhile fun byte => !isLineEnd byte

/-- The first line without the blanks around it, in upper case. -/
def commandLine (frame : List UInt8) : List UInt8 :=
  (((firstLine frame).dropWhile isBlank).rdropWhile isBlank).map toUpper

/-- A terminator is LF, CR, or CR and LF. -/
def afterTerminator : List UInt8 → List UInt8
  | [] => []
  | [_] => []
  | first :: second :: rest =>
      if first = 0x0D ∧ second = 0x0A then rest else second :: rest

def payloadOf (frame : List UInt8) : List UInt8 :=
  afterTerminator (frame.dropWhile fun byte => !isLineEnd byte)

def uartKeywords : List String := ["AT", "AT+GET_CONFIG", "AT+SET_CONFIG"]

/-- Each handler runs on the frames recognised as its keyword and on no other, and any
other frame is answered as unknown. -/
structure Dispatches (recognised : String → Prop) (frame : List UInt8) : Prop where
  ping : uartSimDispatch frame = some .ping ↔ recognised "AT"
  getConfig : uartSimDispatch frame = some .getConfig ↔ recognised "AT+GET_CONFIG"
  setConfig : ∀ payload, uartSimDispatch frame = some (.setConfig payload) ↔
    recognised "AT+SET_CONFIG" ∧ payload = payloadOf frame
  unknown : uartSimDispatch frame = some .unknown ↔ ∀ keyword ∈ uartKeywords, ¬recognised keyword

/-- The contract: a frame is recognised by its whole first line. -/
def DispatchExact (frame : List UInt8) : Prop :=
  Dispatches (fun keyword => commandLine frame = ascii keyword) frame

/-! What `uart_sim_extract_cmd` leaves. -/

/-- The first line without its leading blanks, in upper case, as the driver copies it. -/
def copiedLine (frame : List UInt8) : List UInt8 :=
  ((firstLine frame).dropWhile isBlank).map toUpper

theorem copyLine_eq (outCap : Nat) (out buf : List UInt8) (room : out.length < outCap) :
    copyLine outCap out buf =
      (out ++ ((firstLine buf).map toUpper).take (outCap - 1 - out.length),
        buf.dropWhile fun byte => !isLineEnd byte) := by
  induction buf generalizing out with
  | nil => simp [copyLine, firstLine]
  | cons byte buf ih =>
      cases ends : isLineEnd byte with
      | true => simp [copyLine, firstLine, ends]
      | false =>
          have line : firstLine (byte :: buf) = byte :: firstLine buf := by
            simp [firstLine, ends]
          have unread : ((byte :: buf).dropWhile fun byte => !isLineEnd byte) =
              buf.dropWhile fun byte => !isLineEnd byte := by simp [ends]
          rw [line, unread, copyLine, ends]
          by_cases free : out.length + 1 < outCap
          · have left : outCap - 1 - out.length = outCap - 1 - (out.length + 1) + 1 := by omega
            have next := ih (out ++ [toUpper byte]) (by simpa using free)
            rw [List.length_append, List.length_singleton] at next
            rw [left, List.map_cons, List.take_succ_cons]
            simpa [free] using next
          · have full : outCap - 1 - out.length = 0 := by omega
            have next := ih out room
            rw [full] at next ⊢
            simpa [free] using next

theorem isLineEnd_of_isBlank {byte : UInt8} (blank : isBlank byte = true) :
    isLineEnd byte = false := by
  simp only [isBlank, Bool.or_eq_true, beq_iff_eq] at blank
  rcases blank with rfl | rfl <;> rfl

theorem firstLine_skipBlanks (frame : List UInt8) :
    firstLine (frame.dropWhile isBlank) = (firstLine frame).dropWhile isBlank := by
  induction frame with
  | nil => rfl
  | cons byte frame ih =>
      cases blank : isBlank byte with
      | true => simpa [firstLine, blank, isLineEnd_of_isBlank blank] using ih
      | false =>
          cases ends : isLineEnd byte <;> simp [firstLine, blank, ends]

theorem unread_skipBlanks (frame : List UInt8) :
    ((frame.dropWhile isBlank).dropWhile fun byte => !isLineEnd byte) =
      frame.dropWhile fun byte => !isLineEnd byte := by
  induction frame with
  | nil => rfl
  | cons byte frame ih =>
      cases blank : isBlank byte with
      | true => simpa [blank, isLineEnd_of_isBlank blank] using ih
      | false => simp [blank]

/-- Behind the first line stands nothing, or a terminator. -/
theorem skipByte_unread (frame : List UInt8) :
    skipByte 0x0A (skipByte 0x0D (frame.dropWhile fun byte => !isLineEnd byte)) =
      payloadOf frame := by
  rw [payloadOf]
  induction frame with
  | nil => rfl
  | cons byte frame ih =>
      cases ends : isLineEnd byte with
      | false => simpa [ends] using ih
      | true =>
          simp only [ends, Bool.not_true, Bool.false_eq_true, not_false_eq_true,
            List.dropWhile_cons_of_neg]
          simp only [isLineEnd, Bool.or_eq_true, beq_iff_eq] at ends
          rcases ends with rfl | rfl
          · cases frame <;> simp [skipByte, afterTerminator]
          · cases frame <;> simp [skipByte, afterTerminator]

theorem afterTerminator_suffix (unread : List UInt8) : afterTerminator unread <:+ unread := by
  match unread with
  | [] => exact List.suffix_refl []
  | [_] => exact List.nil_suffix
  | first :: second :: rest =>
      rw [afterTerminator]
      split_ifs
      · exact ⟨[first, second], rfl⟩
      · exact ⟨[first], rfl⟩

theorem payloadOf_suffix (frame : List UInt8) : payloadOf frame <:+ frame :=
  (afterTerminator_suffix _).trans (List.dropWhile_suffix _)

theorem uartSimExtractCmd_eq (frame : List UInt8) {outCap : Nat} (room : 0 < outCap) :
    uartSimExtractCmd frame outCap =
      (trimmed isBlank ((copiedLine frame).take (outCap - 1)),
        frame.length - (payloadOf frame).length) := by
  rw [uartSimExtractCmd, copyLine_eq outCap [] _ room, firstLine_skipBlanks, unread_skipBlanks]
  dsimp only
  rw [skipByte_unread]
  rfl

theorem drop_header (frame : List UInt8) :
    frame.drop (uartSimExtractCmd frame uartSimCmdBytes).2 = payloadOf frame := by
  rw [uartSimExtractCmd_eq frame (by decide)]
  exact (List.suffix_iff_eq_drop.mp (payloadOf_suffix frame)).symm

/-! Upper case. -/

/-- Both blanks lie below the letters, in either case. -/
theorem isBlank_of_gt {byte : UInt8} (above : 0x20 < byte.toNat) : isBlank byte = false := by
  rw [Bool.eq_false_iff]
  intro blank
  simp only [isBlank, Bool.or_eq_true, beq_iff_eq] at blank
  rcases blank with rfl | rfl
  · exact absurd above (by decide)
  · exact absurd above (by decide)

theorem isBlank_toUpper (byte : UInt8) : isBlank (toUpper byte) = isBlank byte := by
  rw [toUpper]
  split_ifs with lower
  · have small : 0x61 ≤ byte.toNat := UInt8.le_iff_toNat_le.mp lower.1
    have shift : 0x20 ≤ byte :=
      UInt8.le_iff_toNat_le.mpr (Nat.le_trans (show 0x20 ≤ 0x61 by decide) small)
    have capital : (byte - 0x20).toNat = byte.toNat - 0x20 := UInt8.toNat_sub_of_le _ _ shift
    have above : 0x20 < (byte - 0x20).toNat := by
      rw [capital]
      omega
    rw [isBlank_of_gt above, isBlank_of_gt (Nat.lt_of_lt_of_le (by decide) small)]
  · rfl

theorem commandLine_eq (frame : List UInt8) :
    commandLine frame = trimmed isBlank (copiedLine frame) := by
  have blanks : isBlank ∘ toUpper = isBlank := funext isBlank_toUpper
  rw [commandLine, copiedLine, trimmed, List.rdropWhile, List.rdropWhile, ← List.map_reverse,
    List.dropWhile_map, blanks, List.map_reverse]

/-! What the driver recognises. -/

def isNul (byte : UInt8) : Bool := byte == 0

theorem isBlank_of_isNul (byte : UInt8) (nul : isNul byte = true) : isBlank byte = false := by
  rw [isNul, beq_iff_eq] at nul
  rw [nul]
  rfl

theorem keyword_of_mem {keyword : String} (member : keyword ∈ uartKeywords) :
    Keyword isBlank isNul (uartSimCmdBytes - 1) (ascii keyword) := by
  have clean : ∀ keyword ∈ uartKeywords, (ascii keyword).all (fun byte => !isNul byte) = true := by
    decide
  have unstopped := List.all_eq_true.mp (clean keyword member)
  refine ⟨?_, fun symbol inside => by simpa using unstopped symbol inside, ?_⟩
  all_goals
    simp only [uartKeywords, List.mem_cons, List.not_mem_nil, or_false] at member
    rcases member with rfl | rfl | rfl
    all_goals decide

/-- The driver takes the frame for the keyword. -/
def Taken (frame : List UInt8) (keyword : String) : Prop :=
  scanned isBlank isNul (uartSimCmdBytes - 1) (copiedLine frame) = ascii keyword

instance decidableTaken (frame : List UInt8) (keyword : String) : Decidable (Taken frame keyword) :=
  inferInstanceAs (Decidable (_ = _))

theorem strEq_cmd_iff (frame : List UInt8) (keyword : String) :
    strEq (uartSimExtractCmd frame uartSimCmdBytes).1 keyword = true ↔ Taken frame keyword := by
  have unstopped : (fun byte : UInt8 => decide (byte ≠ 0)) = fun byte => !isNul byte := by
    funext byte
    rw [isNul, decide_not, Bool.beq_eq_decide_eq]
  rw [strEq, beq_iff_eq, cString, unstopped, uartSimExtractCmd_eq frame (by decide)]
  rfl

theorem uartSimDispatch_eq {frame : List UInt8} (received : frame ≠ []) :
    uartSimDispatch frame =
      some (if Taken frame "AT+GET_CONFIG" then .getConfig
        else if Taken frame "AT+SET_CONFIG" then .setConfig (payloadOf frame)
        else if Taken frame "AT" then .ping
        else .unknown) := by
  rw [uartSimDispatch, if_neg received]
  dsimp only
  simp only [strEq_cmd_iff, drop_header]
  split_ifs <;> rfl

/-- A frame is taken for one keyword at most. -/
theorem Taken.ascii_eq {frame : List UInt8} {keyword other : String}
    (taken : Taken frame keyword) (also : Taken frame other) : ascii keyword = ascii other :=
  taken.symm.trans also

theorem dispatches_taken {frame : List UInt8} (received : frame ≠ []) :
    Dispatches (Taken frame) frame := by
  have getSet : ascii "AT+GET_CONFIG" ≠ ascii "AT+SET_CONFIG" := by decide
  have getPing : ascii "AT+GET_CONFIG" ≠ ascii "AT" := by decide
  have setPing : ascii "AT+SET_CONFIG" ≠ ascii "AT" := by decide
  have branch := uartSimDispatch_eq received
  by_cases get : Taken frame "AT+GET_CONFIG"
  · have notSet : ¬Taken frame "AT+SET_CONFIG" := fun also => getSet (get.ascii_eq also)
    have notPing : ¬Taken frame "AT" := fun also => getPing (get.ascii_eq also)
    rw [if_pos get] at branch
    constructor <;> simp [branch, get, notSet, notPing, uartKeywords]
  rw [if_neg get] at branch
  by_cases set : Taken frame "AT+SET_CONFIG"
  · have notPing : ¬Taken frame "AT" := fun also => setPing (set.ascii_eq also)
    rw [if_pos set] at branch
    constructor <;> simp [branch, get, set, notPing, uartKeywords, eq_comm]
  rw [if_neg set] at branch
  by_cases ping : Taken frame "AT"
  · rw [if_pos ping] at branch
    constructor <;> simp [branch, get, set, ping, uartKeywords]
  · rw [if_neg ping] at branch
    constructor <;> simp [branch, get, set, ping, uartKeywords]

theorem Dispatches.congr {recognised other : String → Prop} {frame : List UInt8}
    (dispatches : Dispatches recognised frame)
    (same : ∀ keyword ∈ uartKeywords, recognised keyword ↔ other keyword) :
    Dispatches other frame where
  ping := dispatches.ping.trans (same _ (by decide))
  getConfig := dispatches.getConfig.trans (same _ (by decide))
  setConfig payload :=
    (dispatches.setConfig payload).trans (and_congr_left' (same _ (by decide)))
  unknown := dispatches.unknown.trans
    (forall₂_congr fun keyword member => not_congr (same keyword member))

theorem Dispatches.unique {recognised other : String → Prop} {frame : List UInt8}
    (dispatches : Dispatches recognised frame) (also : Dispatches other frame) :
    ∀ keyword ∈ uartKeywords, recognised keyword ↔ other keyword := by
  intro keyword member
  simp only [uartKeywords, List.mem_cons, List.not_mem_nil, or_false] at member
  rcases member with rfl | rfl | rfl
  · exact dispatches.ping.symm.trans also.ping
  · exact dispatches.getConfig.symm.trans also.getConfig
  · have left := dispatches.setConfig (payloadOf frame)
    have right := also.setConfig (payloadOf frame)
    rw [and_iff_left rfl] at left right
    exact left.symm.trans right

/-! Exactness. -/

/-- The line is taken for the keyword without being it: a zero byte follows the keyword
at once, or blanks fill the command buffer behind it and the line goes on. -/
def Misread (frame : List UInt8) (keyword : String) : Prop :=
  Overrun isBlank (uartSimCmdBytes - 1) (ascii keyword) (copiedLine frame) ∨
    Stopped isNul (ascii keyword) (copiedLine frame)

theorem taken_iff_commandLine (frame : List UInt8) {keyword : String}
    (member : keyword ∈ uartKeywords) :
    (Taken frame keyword ↔ commandLine frame = ascii keyword) ↔ ¬Misread frame keyword := by
  rw [commandLine_eq]
  exact scanned_exact_iff isBlank_of_isNul (keyword_of_mem member) (copiedLine frame)

theorem DispatchExact.received {frame : List UInt8} (contract : DispatchExact frame) :
    frame ≠ [] := by
  rintro rfl
  have answered := contract.unknown.mpr (by decide)
  cases answered

theorem DispatchExact.read {frame : List UInt8} (contract : DispatchExact frame) :
    ∀ keyword ∈ uartKeywords, ¬Misread frame keyword := by
  intro keyword member
  refine (taken_iff_commandLine frame member).mp ?_
  exact (dispatches_taken contract.received).unique contract keyword member

theorem dispatchExact_of_read {frame : List UInt8} (received : frame ≠ [])
    (read : ∀ keyword ∈ uartKeywords, ¬Misread frame keyword) : DispatchExact frame := by
  refine (dispatches_taken received).congr fun keyword member => ?_
  exact (taken_iff_commandLine frame member).mpr (read keyword member)

/-- Dispatch is exact on the frames that hold a byte and from which no keyword is
misread. -/
theorem dispatchExact_iff (frame : List UInt8) :
    DispatchExact frame ↔ frame ≠ [] ∧ ∀ keyword ∈ uartKeywords, ¬Misread frame keyword :=
  ⟨fun contract => ⟨contract.received, contract.read⟩,
    fun ⟨received, read⟩ => dispatchExact_of_read received read⟩

/-- Both kinds of line are misread: one runs an import, the other is answered as a ping. -/
theorem dispatch_not_exact :
    ¬DispatchExact (ascii "AT+SET_CONFIG" ++ [0x00] ++ ascii "X\n\x7b\x7d") ∧
      ¬DispatchExact (ascii "AT" ++ List.replicate 61 0x20 ++ ascii "X") := by
  constructor
  · intro contract
    have imported : uartSimDispatch (ascii "AT+SET_CONFIG" ++ [0x00] ++ ascii "X\n\x7b\x7d") =
        some (.setConfig (ascii "\x7b\x7d")) := by decide
    exact absurd ((contract.setConfig _).mp imported).1 (by decide)
  · intro contract
    have pinged : uartSimDispatch (ascii "AT" ++ List.replicate 61 0x20 ++ ascii "X") =
        some .ping := by decide +kernel
    exact absurd (contract.ping.mp pinged) (by decide +kernel)

/-! Connections. -/

/-- Any frame that fits the buffer is received whole. -/
theorem uartSimReceive_frame {frame : List UInt8} (fits : frame.length ≤ uartSimRxBufBytes - 1) :
    uartSimReceive [] [.data frame] = frame := by
  have whole : frame.take (uartSimRxBufBytes - 1) = frame := List.take_of_length_le fits
  rw [uartSimReceive, List.length_nil, Nat.sub_zero, whole, List.nil_append]
  split_ifs with empty
  · exact empty.symm
  · rfl
  · rfl

section Serve

variable (print : Json → Option (List UInt8)) (undefined : Rat → Int32)
  (parse : List UInt8 → Option Json)

theorem queueCommit_manager (host : UartHost) : host.queueCommit.2.manager = host.manager := by
  rw [UartHost.queueCommit]
  cases host.queue with
  | none => rfl
  | some queue => dsimp only; cases xQueueSend queue .commit <;> rfl

theorem uartSimHandleSet_run (payload : List UInt8) (host : UartHost) :
    SetterRun host.manager (uartSimHandleSet undefined parse payload host).2.manager := by
  rw [uartSimHandleSet]
  split_ifs
  · exact .refl
  · have imported := configImportJson_run undefined parse (some payload) host.manager
    generalize configImportJson undefined parse (some payload) host.manager = outcome at imported ⊢
    rcases outcome with ⟨status | done, state⟩
    · exact imported
    · dsimp only at imported ⊢
      rw [queueCommit_manager]
      exact imported

/-- A frame that is dispatched to another handler changes nothing. -/
theorem uartSimServe_idle {host : UartHost} {answers : List Recv}
    (other : ∀ payload, uartSimDispatch (uartSimReceive [] answers) ≠ some (.setConfig payload)) :
    (uartSimServe print undefined parse host answers).2 = host := by
  rw [uartSimServe]
  generalize uartSimDispatch (uartSimReceive [] answers) = branch at other ⊢
  rcases branch with _ | (_ | payload | _ | _)
  · rfl
  · rfl
  · exact absurd rfl (other payload)
  · rfl
  · rfl

theorem uartSimServe_run (host : UartHost) (answers : List Recv) :
    SetterRun host.manager (uartSimServe print undefined parse host answers).2.manager := by
  by_cases set : ∃ payload, uartSimDispatch (uartSimReceive [] answers) = some (.setConfig payload)
  · obtain ⟨payload, command⟩ := set
    rw [uartSimServe, command]
    exact uartSimHandleSet_run undefined parse payload host
  · push Not at set
    rw [uartSimServe_idle print undefined parse set]

/-- Whatever the peers send, the manager changes through the setters only. -/
theorem uartSimTask_run (host : UartHost) (connections : List (List Recv)) :
    SetterRun host.manager
      (uartSimTask print undefined parse host connections).manager := by
  induction connections generalizing host with
  | nil => exact .refl
  | cons answers connections ih =>
      exact (uartSimServe_run print undefined parse host answers).trans (ih _)

/-- Over connections without a misread line, only a whole line `AT+SET_CONFIG` changes
the configuration or queues a commit. -/
theorem uartSimTask_idle {host : UartHost} {connections : List (List Recv)}
    (quiet : ∀ answers ∈ connections,
      ¬Misread (uartSimReceive [] answers) "AT+SET_CONFIG" ∧
        commandLine (uartSimReceive [] answers) ≠ ascii "AT+SET_CONFIG") :
    uartSimTask print undefined parse host connections = host := by
  induction connections with
  | nil => rfl
  | cons answers connections ih =>
      have idle : (uartSimServe print undefined parse host answers).2 = host := by
        obtain ⟨read, other⟩ := quiet answers List.mem_cons_self
        refine uartSimServe_idle print undefined parse fun payload command => ?_
        have received : uartSimReceive [] answers ≠ [] := by
          intro empty
          rw [empty] at command
          cases command
        have taken := (((dispatches_taken received).setConfig payload).mp command).1
        exact other (((taken_iff_commandLine _ (by decide)).mpr read).mp taken)
      rw [uartSimTask, List.foldl_cons, idle]
      exact ih fun answers member => quiet answers (List.mem_cons_of_mem _ member)

end Serve

end ConfigWp
