import ConfigWp.Application.TlvProperties
import ConfigWp.Library.Machine

/-! Whole runs of the iterator and of the writer. Iterating a byte string is the scan of
the TLV grammar, and what any history of calls leaves in a writer is the encoding of the
records of the calls that succeeded. -/

set_option autoImplicit false

namespace ConfigWp

open LittleEndian

/-! Iterating to the end. -/

/-- A record the iterator handed out, with the cursor it was found at. -/
structure TlvRead where
  cursor : Nat
  tag : UInt16
  value : List UInt8
  deriving DecidableEq, Repr

def TlvRead.pair (read : TlvRead) : UInt16 × List UInt8 := (read.tag, read.value)

def TlvRecord.pair (record : TlvRecord) : UInt16 × List UInt8 := (record.tag, record.value)

/-- The records handed out, the status the iteration ended with and the iterator then. -/
structure TlvReading where
  reads : List TlvRead
  status : TlvStatus
  last : TlvIter
  deriving DecidableEq, Repr

/-- `tlv_iter_next` until it returns something other than `TLV_OK`, with a bound on the
number of calls. -/
def tlvIterAll : Nat → TlvIter → Option TlvReading
  | 0, _ => none
  | calls + 1, it =>
      match tlvIterNext it with
      | .error status => some ⟨[], status, it⟩
      | .ok (tag, value, next) =>
          (tlvIterAll calls next).map fun reading =>
            { reading with reads := ⟨it.cursor, tag, value⟩ :: reading.reads }

theorem tlvIterNext_inside {it next : TlvIter} {tag : UInt16} {value : List UInt8}
    (found : tlvIterNext it = .ok (tag, value, next)) :
    next.buf = it.buf ∧ next.cursor = it.cursor + tlvHeaderBytes + value.length ∧
      next.cursor ≤ it.buf.length ∧
      value = Splice.window it.buf (it.cursor + tlvHeaderBytes) value.length := by
  simp only [tlvIterNext] at found
  split_ifs at found with ended torn overrun
  injection found with found
  obtain ⟨-, rfl, rfl⟩ := found
  have size := Splice.length_window (Nat.not_lt.mp overrun)
  rw [size]
  exact ⟨rfl, rfl, Nat.not_lt.mp overrun, rfl⟩

/-- What an iteration from a cursor on comes to: it stays inside the buffer, and it is the
scan of what is left. -/
structure TlvReading.Follows (it : TlvIter) (reading : TlvReading) : Prop where
  buf : reading.last.buf = it.buf
  forward : it.cursor + tlvHeaderBytes * reading.reads.length ≤ reading.last.cursor
  inside : reading.last.cursor ≤ it.buf.length
  slices : ∀ read ∈ reading.reads,
    read.cursor + tlvHeaderBytes + read.value.length ≤ it.buf.length ∧
      read.value = Splice.window it.buf (read.cursor + tlvHeaderBytes) read.value.length
  pairs : reading.reads.map TlvRead.pair =
    (tlvFormat.scan (it.buf.drop it.cursor)).1.map TlvRecord.pair
  status : reading.status = (tlvFormat.scan (it.buf.drop it.cursor)).2.getD .finished
  left : it.buf.drop it.cursor =
    tlvFormat.encodeAll (tlvFormat.scan (it.buf.drop it.cursor)).1 ++
      it.buf.drop reading.last.cursor

theorem TlvReading.follows_stop {it : TlvIter} (inside : it.cursor ≤ it.buf.length)
    {ending : Option TlvStatus} (scanned : tlvFormat.scan (it.buf.drop it.cursor) = ([], ending)) :
    TlvReading.Follows it ⟨[], ending.getD .finished, it⟩ where
  buf := rfl
  forward := Nat.le_refl _
  inside := inside
  slices := fun _ member => absurd member List.not_mem_nil
  pairs := by rw [scanned]; rfl
  status := by rw [scanned]
  left := by rw [scanned]; rfl

theorem TlvReading.Follows.record {it next : TlvIter} {record : TlvRecord} {rest : List UInt8}
    {reading : TlvReading} (follows : reading.Follows next)
    (found : tlvIterNext it = .ok (record.tag, record.value, next))
    (head : tlvHead (it.buf.drop it.cursor) = .record record rest)
    (left : next.buf.drop next.cursor = rest) :
    TlvReading.Follows it
      { reading with reads := ⟨it.cursor, record.tag, record.value⟩ :: reading.reads } := by
  obtain ⟨buf, moved, inside, value⟩ := tlvIterNext_inside found
  have scanned := tlvFormat.scan_record head
  rw [← left] at scanned
  have ahead := follows.forward
  refine ⟨follows.buf.trans buf, ?_, follows.inside.trans_eq (congrArg List.length buf), ?_, ?_,
    ?_, ?_⟩
  · calc it.cursor + tlvHeaderBytes * (reading.reads.length + 1)
        = it.cursor + tlvHeaderBytes + tlvHeaderBytes * reading.reads.length := by
          rw [Nat.mul_succ]
          omega
      _ ≤ next.cursor + tlvHeaderBytes * reading.reads.length := by omega
      _ ≤ reading.last.cursor := ahead
  · intro read member
    rcases List.mem_cons.mp member with rfl | later
    · exact ⟨moved ▸ inside, value⟩
    · exact buf ▸ follows.slices read later
  · rw [scanned, List.map_cons, List.map_cons, follows.pairs]
    rfl
  · rw [scanned]
    exact follows.status
  · have shape := tlvFormat.eq_encode_of_head _ _ _ head
    have after := follows.left
    rw [left, buf] at after
    rw [scanned, left, Framing.Format.encodeAll_cons, List.append_assoc, ← after]
    exact shape

/-- A bound of one call for every four bytes, and one more, is never reached. -/
theorem tlvIterAll_follows {calls : Nat} {it : TlvIter} (inside : it.cursor ≤ it.buf.length)
    (enough : it.buf.length < it.cursor + tlvHeaderBytes * calls) :
    ∃ reading, tlvIterAll calls it = some reading ∧ reading.Follows it := by
  induction calls generalizing it with
  | zero => omega
  | succ calls ih =>
      have next := tlvIterNext_eq inside
      rw [tlvIterAll]
      cases head : tlvHead (it.buf.drop it.cursor) with
      | done =>
          rw [head] at next
          rw [next]
          exact ⟨_, rfl, TlvReading.follows_stop inside (tlvFormat.scan_done head)⟩
      | malformed status =>
          rw [head] at next
          rw [next.1]
          exact ⟨_, rfl, TlvReading.follows_stop inside (tlvFormat.scan_malformed head)⟩
      | record record rest =>
          rw [head] at next
          obtain ⟨after, found, buf, room, left⟩ := next
          obtain ⟨-, moved, -, -⟩ := tlvIterNext_inside found
          have fewer : after.buf.length < after.cursor + tlvHeaderBytes * calls := by
            rw [buf, moved]
            rw [tlvHeaderBytes] at *
            omega
          obtain ⟨reading, ended, follows⟩ := ih (buf ▸ room) fewer
          rw [found]
          simp only [ended, Option.map_some]
          exact ⟨_, rfl, follows.record found head left⟩

theorem tlvIterAll_init (buf : List UInt8) :
    ∃ reading, tlvIterAll (buf.length / tlvHeaderBytes + 1) (tlvIterInit buf) = some reading ∧
      reading.Follows (tlvIterInit buf) := by
  refine tlvIterAll_follows (Nat.zero_le _) ?_
  rw [tlvIterInit, Nat.zero_add]
  exact Nat.lt_mul_div_succ _ (by decide)

/-! The grammar. -/

/-- The records that head a stream are the first ones scanned from it. -/
theorem prefix_scan {records : List TlvRecord} {bytes rest : List UInt8}
    (shape : bytes = tlvFormat.encodeAll records ++ rest) :
    records <+: (tlvFormat.scan bytes).1 := by
  rw [shape, tlvFormat.scan_encodeAll_append]
  exact List.prefix_append _ _

theorem scan_clean_iff {bytes : List UInt8} :
    (tlvFormat.scan bytes).2 = none ↔ ∃ records, bytes = tlvFormat.encodeAll records := by
  constructor
  · intro clean
    exact ⟨_, (tlvFormat.encodeAll_scan clean).symm⟩
  · rintro ⟨records, rfl⟩
    rw [tlvFormat.scan_encodeAll]

/-- How a stream without a complete record at its head ends. -/
theorem tlvHead_malformed {stream : List UInt8} {status : TlvStatus}
    (found : tlvHead stream = .malformed status) :
    (status = .errTruncated ∧ 1 ≤ stream.length ∧ stream.length ≤ 3) ∨
      (status = .errOverrun ∧ tlvHeaderBytes ≤ stream.length ∧
        stream.length < tlvHeaderBytes + tlvLength stream) := by
  simp only [tlvHead] at found
  split_ifs at found with empty torn overrun
  · injection found with same
    rw [tlvHeaderBytes] at torn
    exact .inl ⟨same.symm, by omega, by omega⟩
  · injection found with same
    exact .inr ⟨same.symm, Nat.not_lt.mp torn, overrun⟩

theorem scan_finished_iff {bytes : List UInt8} :
    (tlvFormat.scan bytes).2.getD .finished = .finished ↔ (tlvFormat.scan bytes).2 = none := by
  obtain ⟨tail, -, ending⟩ := tlvFormat.scan_sound bytes
  cases failed : (tlvFormat.scan bytes).2 with
  | none => simp
  | some error =>
      rw [failed] at ending
      rcases tlvHead_malformed ending with ⟨rfl, -⟩ | ⟨rfl, -⟩ <;> simp


/-! Histories of the writer. -/

/-- A call of one of the two emitters. -/
inductive TlvCall where
  | emit (tag : UInt16) (value : TlvSource)
  | emitRaw (record : TlvSource)
  deriving DecidableEq, Repr

namespace TlvCall

def perform : TlvCall → TlvWriter → Except TlvStatus Unit × TlvWriter
  | .emit tag value, w => tlvWriterEmit w tag value
  | .emitRaw record, w => tlvWriterEmitRaw w record

/-- The tag and value a call carries. -/
def pair : TlvCall → UInt16 × List UInt8
  | .emit tag value => (tag, value.data)
  | .emitRaw record => (read16 record.data, record.data.drop tlvHeaderBytes)

end TlvCall

/-- What the calls so far returned, the tags and values of the ones that succeeded, and the
writer. -/
structure TlvHistory where
  statuses : List (Except TlvStatus Unit)
  accepted : List (UInt16 × List UInt8)
  writer : TlvWriter

def TlvHistory.extend (history : TlvHistory) (call : TlvCall) : TlvHistory :=
  match call.perform history.writer with
  | (.error status, next) => ⟨history.statuses ++ [.error status], history.accepted, next⟩
  | (.ok (), next) => ⟨history.statuses ++ [.ok ()], history.accepted ++ [call.pair], next⟩

def tlvHistory (buf : List UInt8) (calls : List TlvCall) : TlvHistory :=
  Machine.run TlvHistory.extend ⟨[], [], tlvWriterInit buf⟩ calls

/-- A raw record that passes the length check is the encoding of one record. -/
theorem encode_of_rawLength {data : List UInt8} (header : tlvHeaderBytes ≤ data.length)
    (length : tlvHeaderBytes + tlvLength data = data.length) :
    ∃ record : TlvRecord, record.encode = data ∧
      record.pair = (read16 data, data.drop tlvHeaderBytes) := by
  have found : tlvHead data = .record
      ⟨read16 data, Splice.window data tlvHeaderBytes (tlvLength data),
        (List.length_take_le _ _).trans (tlvLength_le data)⟩
      (data.drop (tlvHeaderBytes + tlvLength data)) := by
    rw [tlvHeaderBytes] at *
    rw [tlvHead, if_neg (by omega), if_neg (by rw [tlvHeaderBytes]; omega),
      if_neg (by rw [tlvHeaderBytes]; omega)]
    rfl
  have shape := tlvFormat.eq_encode_of_head data _ _ found
  rw [length, List.drop_length, List.append_nil] at shape
  have value : Splice.window data tlvHeaderBytes (tlvLength data) = data.drop tlvHeaderBytes := by
    rw [Splice.window, List.take_of_length_le]
    rw [List.length_drop]
    omega
  exact ⟨_, shape.symm, congrArg (Prod.mk _) value⟩

/-- A call either fails and changes nothing, or appends the record it carries. -/
theorem TlvCall.perform_cases (call : TlvCall) (w : TlvWriter) :
    (∃ status, call.perform w = (.error status, w)) ∨
      ∃ (record : TlvRecord) (next : TlvWriter), call.perform w = (.ok (), next) ∧
        record.pair = call.pair ∧ next.cap = w.cap ∧
        next.written = w.written ++ record.encode := by
  cases call with
  | emit tag value =>
      simp only [TlvCall.perform, tlvWriterEmit]
      split_ifs with unusable missing large room
      · exact .inl ⟨_, rfl⟩
      · exact .inl ⟨_, rfl⟩
      · exact .inl ⟨_, rfl⟩
      · have fits := value.length_data_le.trans (Nat.not_lt.mp large)
        exact .inr ⟨⟨tag, value.data, fits⟩, _, rfl, rfl, TlvWriter.cap_advance _ _ _,
          TlvWriter.written_advance _ _ _⟩
      · exact .inl ⟨_, rfl⟩
  | emitRaw record =>
      simp only [TlvCall.perform, tlvWriterEmitRaw]
      split_ifs with unusable short torn room
      · exact .inl ⟨_, rfl⟩
      · exact .inl ⟨_, rfl⟩
      · exact .inl ⟨_, rfl⟩
      · cases record with
        | null len => exact absurd (.inl rfl) short
        | bytes data =>
            have header := Nat.not_lt.mp fun small => short (.inr small)
            obtain ⟨record, shape, pair⟩ := encode_of_rawLength header (not_not.mp torn)
            refine .inr ⟨record, _, rfl, pair, TlvWriter.cap_advance _ _ _, ?_⟩
            rw [shape]
            exact TlvWriter.written_advance _ _ _
      · exact .inl ⟨_, rfl⟩

/-- The buffer keeps its size and holds the encoding of the accepted records. -/
structure TlvHistory.Consistent (cap : Nat) (history : TlvHistory) : Prop where
  cap_eq : history.writer.cap = cap
  written : ∃ records : List TlvRecord, records.map TlvRecord.pair = history.accepted ∧
    history.writer.written = tlvFormat.encodeAll records

theorem TlvHistory.Consistent.extend {cap : Nat} {history : TlvHistory}
    (consistent : history.Consistent cap) (call : TlvCall) :
    (history.extend call).Consistent cap := by
  obtain ⟨size, records, pairs, written⟩ := consistent
  rw [TlvHistory.extend]
  rcases call.perform_cases history.writer with
    ⟨status, failed⟩ | ⟨record, next, passed, pair, kept, grown⟩
  · rw [failed]
    exact ⟨size, records, pairs, written⟩
  · rw [passed]
    refine ⟨kept.trans size, records ++ [record], ?_, ?_⟩
    · rw [List.map_append, pairs, List.map_singleton, pair]
    · rw [grown, written, Framing.Format.encodeAll_append, Framing.Format.encodeAll_cons,
        Framing.Format.encodeAll_nil, List.append_nil, tlvFormat_encode]

theorem tlvHistory_consistent (buf : List UInt8) (calls : List TlvCall) :
    (tlvHistory buf calls).Consistent buf.length := by
  have start : TlvHistory.Consistent buf.length ⟨[], [], tlvWriterInit buf⟩ :=
    ⟨rfl, [], rfl, TlvWriter.written_init buf⟩
  exact Machine.run_invariant TlvHistory.extend start
    (fun _ call (_ : True) consistent => TlvHistory.Consistent.extend consistent call)
    (fun _ _ => trivial)

/-- Any history of calls: a call that fails changes nothing, the buffer is never overrun, and
iterating what was written gives the records of the calls that succeeded. -/
theorem tlvHistory_iter (buf : List UInt8) (calls : List TlvCall) :
    (∀ earlier call later status, calls = earlier ++ call :: later →
      (call.perform (tlvHistory buf earlier).writer).1 = .error status →
      (call.perform (tlvHistory buf earlier).writer).2 = (tlvHistory buf earlier).writer) ∧
    (∀ earlier later, calls = earlier ++ later →
      (tlvHistory buf earlier).writer.cap = buf.length ∧
      (tlvHistory buf earlier).writer.used ≤ (tlvHistory buf earlier).writer.cap) ∧
    ∃ reading, tlvIterAll ((tlvHistory buf calls).writer.used / tlvHeaderBytes + 1)
        (tlvIterInit ((tlvHistory buf calls).writer.buf.take
          (tlvHistory buf calls).writer.used)) = some reading ∧
      reading.reads.map TlvRead.pair = (tlvHistory buf calls).accepted ∧
      reading.status = .finished := by
  refine ⟨?_, ?_, ?_⟩
  · intro earlier call later status _ failed
    rcases call.perform_cases (tlvHistory buf earlier).writer with
      ⟨status, unchanged⟩ | ⟨record, next, passed, -⟩
    · rw [unchanged]
    · rw [passed] at failed
      cases failed
  · intro earlier later _
    exact ⟨(tlvHistory_consistent buf earlier).cap_eq, (tlvHistory buf earlier).writer.used_le⟩
  · obtain ⟨-, records, pairs, written⟩ := tlvHistory_consistent buf calls
    obtain ⟨reading, ended, follows⟩ := tlvIterAll_init (tlvHistory buf calls).writer.written
    rw [TlvWriter.length_written] at ended
    have scanned := tlvFormat.scan_encodeAll records
    rw [← written] at scanned
    refine ⟨reading, ended, ?_, ?_⟩
    · rw [follows.pairs, ← pairs]
      exact congrArg (fun scan => scan.1.map TlvRecord.pair) scanned
    · rw [follows.status]
      exact congrArg (fun scan => scan.2.getD .finished) scanned

/-! Emitting the records of a reading again. -/

def TlvRead.reemit (read : TlvRead) : TlvCall := .emit read.tag (.bytes read.value)

def TlvRecord.reemit (record : TlvRecord) : TlvCall := .emit record.tag (.bytes record.value)

theorem reemit_eq {reads : List TlvRead} {records : List TlvRecord}
    (pairs : reads.map TlvRead.pair = records.map TlvRecord.pair) :
    reads.map TlvRead.reemit = records.map TlvRecord.reemit := by
  have lifted := congrArg
    (List.map fun pair : UInt16 × List UInt8 => TlvCall.emit pair.1 (.bytes pair.2)) pairs
  rw [List.map_map, List.map_map] at lifted
  exact lifted

/-- Records that fit are all written, one behind the other. -/
theorem history_reemit {records : List TlvRecord} {history : TlvHistory}
    (room : history.writer.used + (tlvFormat.encodeAll records).length ≤ history.writer.cap)
    (calm : ∀ status ∈ history.statuses, status = .ok ()) :
    (∀ status ∈ (Machine.run TlvHistory.extend history
        (records.map TlvRecord.reemit)).statuses, status = .ok ()) ∧
      (Machine.run TlvHistory.extend history (records.map TlvRecord.reemit)).writer.written =
        history.writer.written ++ tlvFormat.encodeAll records := by
  induction records generalizing history with
  | nil => exact ⟨calm, (List.append_nil _).symm⟩
  | cons record records ih =>
      rw [Framing.Format.encodeAll_cons, List.length_append, tlvFormat_encode,
        record.length_encode] at room
      have positive := record.size_pos
      have emitted := tlvWriterEmit_record history.writer record (by omega)
      rw [if_pos (by omega)] at emitted
      obtain ⟨next, passed, kept, grown⟩ := emitted
      have step : history.extend record.reemit =
          ⟨history.statuses ++ [.ok ()], history.accepted ++ [record.reemit.pair], next⟩ := by
        rw [TlvHistory.extend, TlvRecord.reemit, TlvCall.perform, passed]
      have used : next.used = history.writer.used + record.size := by
        rw [← next.length_written, grown, List.length_append, TlvWriter.length_written,
          record.length_encode]
      rw [List.map_cons, Machine.run_cons, step]
      obtain ⟨statuses, written⟩ := @ih
        ⟨history.statuses ++ [.ok ()], history.accepted ++ [record.reemit.pair], next⟩
        (by simp only [used, kept]; omega) (by
          intro status member
          rcases List.mem_append.mp member with before | last
          · exact calm status before
          · exact List.mem_singleton.mp last)
      refine ⟨statuses, ?_⟩
      rw [written, grown, Framing.Format.encodeAll_cons, List.append_assoc, tlvFormat_encode]

theorem tlvHistory_reemit {records : List TlvRecord} {buf : List UInt8}
    (size : buf.length = (tlvFormat.encodeAll records).length) :
    (∀ status ∈ (tlvHistory buf (records.map TlvRecord.reemit)).statuses, status = .ok ()) ∧
      (tlvHistory buf (records.map TlvRecord.reemit)).writer.buf =
        tlvFormat.encodeAll records := by
  obtain ⟨statuses, written⟩ := @history_reemit records ⟨[], [], tlvWriterInit buf⟩
    (by rw [← size]; exact (Nat.zero_add _).le) (fun _ member => absurd member List.not_mem_nil)
  refine ⟨statuses, ?_⟩
  rw [TlvWriter.written_init, List.nil_append] at written
  have full : (tlvHistory buf (records.map TlvRecord.reemit)).writer.cap ≤
      (tlvHistory buf (records.map TlvRecord.reemit)).writer.used := by
    rw [(tlvHistory_consistent buf _).cap_eq, ← TlvWriter.length_written, size]
    exact (congrArg List.length written).ge
  exact (List.take_of_length_le full).symm.trans written

/-- The iterator accepts the TLV grammar and nothing else: it ends after at most a quarter of
the length, never leaves the buffer, reports the end exactly for a concatenation of
complete records, which its records reproduce, and otherwise says how the rest behind the
longest such prefix is torn. -/
theorem tlvIterAll_grammar (bytes : List UInt8) :
    ∃ reading, tlvIterAll (bytes.length / tlvHeaderBytes + 1) (tlvIterInit bytes) =
        some reading ∧
      reading.reads.length ≤ bytes.length / tlvHeaderBytes ∧
      reading.last.cursor ≤ bytes.length ∧
      (∀ read ∈ reading.reads,
        read.cursor + tlvHeaderBytes + read.value.length ≤ bytes.length ∧
        read.value = Splice.window bytes (read.cursor + tlvHeaderBytes) read.value.length) ∧
      (reading.status = .finished ↔ ∃ records, bytes = tlvFormat.encodeAll records) ∧
      (reading.status = .finished → ∀ buf : List UInt8, buf.length = bytes.length →
        (∀ status ∈ (tlvHistory buf (reading.reads.map TlvRead.reemit)).statuses,
          status = .ok ()) ∧
        (tlvHistory buf (reading.reads.map TlvRead.reemit)).writer.buf = bytes) ∧
      (∃ records, reading.reads.map TlvRead.pair = records.map TlvRecord.pair ∧
        bytes = tlvFormat.encodeAll records ++ bytes.drop reading.last.cursor ∧
        ∀ more rest, bytes = tlvFormat.encodeAll more ++ rest → more <+: records) ∧
      (reading.status ≠ .finished →
        (reading.status = .errTruncated ∧ 1 ≤ (bytes.drop reading.last.cursor).length ∧
          (bytes.drop reading.last.cursor).length ≤ 3) ∨
        (reading.status = .errOverrun ∧
          tlvHeaderBytes ≤ (bytes.drop reading.last.cursor).length ∧
          (bytes.drop reading.last.cursor).length <
            tlvHeaderBytes + tlvLength (bytes.drop reading.last.cursor))) := by
  obtain ⟨reading, ended, follows⟩ := tlvIterAll_init bytes
  obtain ⟨-, forward, inside, slices, pairs, status, left⟩ := follows
  simp only [tlvIterInit, List.drop_zero, Nat.zero_add] at forward inside slices pairs status left
  have accepted : reading.status = .finished ↔ (tlvFormat.scan bytes).2 = none := by
    rw [status]
    exact scan_finished_iff
  refine ⟨reading, ended, ?_, inside, slices, accepted.trans scan_clean_iff, ?_,
    ⟨_, pairs, left, fun more rest => prefix_scan⟩, ?_⟩
  · rw [Nat.le_div_iff_mul_le (by decide), Nat.mul_comm]
    exact forward.trans inside
  · intro clean buf size
    have whole := tlvFormat.encodeAll_scan (accepted.mp clean)
    obtain ⟨statuses, written⟩ :=
      @tlvHistory_reemit (tlvFormat.scan bytes).1 buf (by rw [whole, size])
    rw [reemit_eq pairs]
    exact ⟨statuses, written.trans whole⟩
  · intro torn
    obtain ⟨tail, shape, ending⟩ := tlvFormat.scan_sound bytes
    obtain rfl := List.append_cancel_left (shape.symm.trans left)
    cases failed : (tlvFormat.scan bytes).2 with
    | none => exact absurd (accepted.mpr failed) torn
    | some error =>
        rw [failed] at ending status
        rw [status]
        exact tlvHead_malformed ending

end ConfigWp
