import ConfigWp.Application.SlotProperties

/-! Runs of `slot_write` under power loss. A call either completes or stops
before the header write that commits it; the invariant is that of the settled
double buffer, with sequence numbers counted by the calls made so far. -/

set_option autoImplicit false

namespace ConfigWp

/-- How a call of `slot_write` ends: completed, stopped after a byte prefix of
the payload write, or stopped between the payload write and the header write. -/
inductive SlotWriteEnd where
  | completed
  | payloadCut (written : Nat)
  | headerMissing
  deriving DecidableEq, Repr

structure SlotWriteCall where
  payload : SlotPayload
  ending : SlotWriteEnd

def SlotWriteEnd.faults : SlotWriteEnd → SlotWriteFaults
  | .completed => .none
  | .payloadCut written => { SlotWriteFaults.none with payloadWrite := .cut written }
  | .headerMissing => { SlotWriteFaults.none with headerWrite := .cut 0 }

def slotWriteCall (storage : Storage) (call : SlotWriteCall) : Storage :=
  (slotWrite call.ending.faults storage call.payload.bytes).2

def lastCommitted (committed : Option SlotPayload) (call : SlotWriteCall) : Option SlotPayload :=
  match call.ending with
  | .completed => some call.payload
  | _ => committed

/-- Before the first commit both headers are unreadable; after it the pair is
settled on the last committed payload. -/
def SlotRunInvariant (made : Nat) (storage : Storage) (committed : Option SlotPayload) : Prop :=
  (∀ id seq, (slotPair storage id).stamp? = some seq → seq.toNat ≤ made) ∧
    match committed with
    | none => ∀ id, (slotPair storage id).stamp? = none
    | some payload => DoubleBuffer.Settled (· + 1) 1 (slotPair storage) payload.bytes

private theorem successor_toNat {seq : UInt32} (room : seq.toNat + 1 < 2 ^ 32) :
    (seq + 1).toNat = seq.toNat + 1 := by
  simp only [UInt32.toNat_add, UInt32.toNat_one]
  omega

private theorem unwrapped_of_bound {made : Nat} {storage : Storage} (few : made + 1 < 2 ^ 32)
    (bound : ∀ id seq, (slotPair storage id).stamp? = some seq → seq.toNat ≤ made) :
    DoubleBuffer.Unwrapped (· + 1) (slotPair storage) := by
  intro id seq stamp
  have small := bound id seq stamp
  rw [UInt32.lt_iff_toNat_lt, successor_toNat (by omega)]
  omega

/-- A commit raises the highest stamp by one at most. -/
theorem stamps_commit {made : Nat} {storage : Storage} (few : made + 1 < 2 ^ 32)
    (bound : ∀ id seq, (slotPair storage id).stamp? = some seq → seq.toNat ≤ made)
    (content : List UInt8) (id : SlotId) (seq : UInt32)
    (stamp : (DoubleBuffer.commit (· + 1) 1 (slotPair storage) content id).stamp? = some seq) :
    seq.toNat ≤ made + 1 := by
  rcases DoubleBuffer.stamp_commit (· + 1) 1 stamp with kept | first | ⟨source, old, held, bumped⟩
  · exact (bound id seq kept).trans (Nat.le_succ made)
  · subst first
    exact Nat.succ_le_succ (Nat.zero_le made)
  · subst bumped
    have small := bound source old held
    rw [successor_toNat (by omega)]
    omega

theorem slotRunInvariant_completed {made : Nat} {storage : Storage}
    {committed : Option SlotPayload} {payload : SlotPayload} (few : made + 1 < 2 ^ 32)
    (invariant : SlotRunInvariant made storage committed) :
    SlotRunInvariant (made + 1) (slotWrite .none storage payload.bytes).2 (some payload) := by
  obtain ⟨bound, -⟩ := invariant
  have written := (slotWrite_commit storage payload).2
  refine ⟨?_, ?_⟩
  · intro id seq stamp
    rw [written] at stamp
    exact stamps_commit few bound payload.bytes id seq stamp
  · simp only [written]
    exact DoubleBuffer.settled_commit (· + 1) 1 (unwrapped_of_bound few bound) payload.bytes

theorem slotRunInvariant_torn {made : Nat} {storage : Storage} {committed : Option SlotPayload}
    {payload : SlotPayload} {faults : SlotWriteFaults} (readable : faults.header = fun _ => false)
    (stopped : faults.payloadWrite ≠ .complete ∨ faults.headerWrite = .cut 0)
    (invariant : SlotRunInvariant made storage committed) :
    SlotRunInvariant (made + 1) (slotWrite faults storage payload.bytes).2 committed := by
  obtain ⟨bound, agreed⟩ := invariant
  obtain ⟨torn, stamped, written⟩ := @slotWrite_torn faults storage payload stopped
  rw [readable, slotWriteTarget_eq_pair] at stamped written
  have stamps : ∀ id, (slotPair (slotWrite faults storage payload.bytes).2 id).stamp? =
      (slotPair storage id).stamp? := by
    intro id
    rw [written]
    rcases DoubleBuffer.Side.eq_or_eq_other id
        (DoubleBuffer.target (· + 1) 1 (slotPair storage)).1 with rfl | rfl
    · rw [Function.update_self, stamped]
    · rw [Function.update_of_ne (DoubleBuffer.Side.other_ne _)]
  constructor
  · intro id seq stamp
    exact (bound id seq (stamps id ▸ stamp)).trans (Nat.le_succ made)
  · cases committed with
    | none => exact fun id => (stamps id).trans (agreed id)
    | some payload =>
        simp only [written]
        exact DoubleBuffer.Settled.damaged (· + 1) 1 agreed stamped

theorem slotRunInvariant_step {made : Nat} {storage : Storage} {committed : Option SlotPayload}
    (call : SlotWriteCall) (few : made + 1 < 2 ^ 32)
    (invariant : SlotRunInvariant made storage committed) :
    SlotRunInvariant (made + 1) (slotWriteCall storage call) (lastCommitted committed call) := by
  obtain ⟨payload, ending⟩ := call
  cases ending with
  | completed => exact slotRunInvariant_completed few invariant
  | payloadCut written =>
      exact slotRunInvariant_torn rfl (.inl (by simp [SlotWriteEnd.faults])) invariant
  | headerMissing => exact slotRunInvariant_torn rfl (.inr rfl) invariant

theorem slotRunInvariant_run {calls : List SlotWriteCall} (few : calls.length < 2 ^ 32) :
    SlotRunInvariant calls.length (Machine.run slotWriteCall storageInit calls)
      (Machine.run lastCommitted none calls) := by
  refine Machine.run_simulation slotWriteCall
    (fun seen storage committed => SlotRunInvariant seen.length storage committed)
    ⟨?_, slotPair_erased⟩ ?_
  · intro id seq stamp
    simp [slotPair_erased id] at stamp
  · intro seen call later storage committed split invariant
    have whole := congrArg List.length split
    simp only [List.length_append, List.length_cons] at whole
    rw [List.length_append]
    exact slotRunInvariant_step call (by omega) invariant

theorem slotPickActive_of_invariant {made : Nat} {storage : Storage} {payload : SlotPayload}
    {buf : List UInt8} (invariant : SlotRunInvariant made storage (some payload))
    (room : slotPayloadMaxBytes ≤ buf.length) :
    ∃ id, (slotPickActive .none storage buf).1 = .ok (id, payload.bytes.length) ∧
      (slotPickActive .none storage buf).2.take payload.bytes.length = payload.bytes := by
  obtain ⟨id, seq, chosen, copy⟩ := DoubleBuffer.newest_of_read invariant.2.read
  obtain ⟨answer, front, -⟩ := slotPickActive_of_newest room chosen copy rfl
  exact ⟨id, answer, front⟩

/-- At every point of a run of fewer than 2^32 writes, each completed or stopped
before its commit, the reader finds the last committed payload, and nothing
before the first commit. -/
theorem slotPickActive_after_run (calls : List SlotWriteCall) (few : calls.length < 2 ^ 32)
    (buf : List UInt8) (room : slotPayloadMaxBytes ≤ buf.length) :
    match Machine.run lastCommitted none calls with
    | none =>
        (slotPickActive .none (Machine.run slotWriteCall storageInit calls) buf).1 =
          .error .errNoValid
    | some payload =>
        ∃ id,
          (slotPickActive .none (Machine.run slotWriteCall storageInit calls) buf).1 =
              .ok (id, payload.bytes.length) ∧
            (slotPickActive .none (Machine.run slotWriteCall storageInit calls) buf).2.take
              payload.bytes.length = payload.bytes := by
  obtain ⟨-, agreed⟩ := slotRunInvariant_run few
  cases committed : Machine.run lastCommitted none calls with
  | none =>
      rw [committed] at agreed
      refine slotPickActive_noValid room (DoubleBuffer.newest_eq_none_iff.mpr fun id => ?_)
      have blank := slotCopies_eq_blank (agreed id)
      simp only [slotPair, blank, DoubleBuffer.Copy.content?_blank]
  | some payload =>
      have invariant := slotRunInvariant_run few
      rw [committed] at invariant
      exact slotPickActive_of_invariant invariant room

theorem slotPickActive_after_torn_write :
    ∃ id,
      (slotPickActive .none
          (Machine.run slotWriteCall storageInit
            [⟨⟨[1, 2], by decide, by decide⟩, .completed⟩,
              ⟨⟨[3, 4, 5], by decide, by decide⟩, .payloadCut 1⟩])
          (List.replicate 2028 0)).1 = .ok (id, 2) ∧
        (slotPickActive .none
            (Machine.run slotWriteCall storageInit
              [⟨⟨[1, 2], by decide, by decide⟩, .completed⟩,
                ⟨⟨[3, 4, 5], by decide, by decide⟩, .payloadCut 1⟩])
            (List.replicate 2028 0)).2.take 2 = [1, 2] :=
  slotPickActive_after_run
    [⟨⟨[1, 2], by decide, by decide⟩, .completed⟩,
      ⟨⟨[3, 4, 5], by decide, by decide⟩, .payloadCut 1⟩]
    (by decide) (List.replicate 2028 0) List.length_replicate.ge

/-! The writer against the reader on an arbitrary image. The writer ranks the
slots by their headers alone, so a slot whose header outlived its payload can
outrank the only valid one. -/

def SlotOutranked (storage : Storage) (id : SlotId) : Prop :=
  slotHeaderLooksSane (slotHeader storage id.other) = true ∧
    match id with
    | .a => (slotHeader storage .a).seq < (slotHeader storage .b).seq
    | .b => (slotHeader storage .b).seq ≤ (slotHeader storage .a).seq

theorem outranked_iff_of_valid {storage : Storage} {id : SlotId} {seq : UInt32}
    {payload : List UInt8} (copy : slotPair storage id = .valid seq payload) :
    DoubleBuffer.Outranked (slotPair storage) id ↔ SlotOutranked storage id := by
  have sane := (slotCopies_eq_valid_iff.mp copy).1.2
  cases id <;> simp only [DoubleBuffer.Outranked, SlotOutranked, slotCopies_stamp, sane,
    SlotReadFaults.none, DoubleBuffer.Side.other, Bool.not_true, Bool.or_false, Bool.false_eq_true,
    if_false, Bool.false_or]
  · cases slotHeaderLooksSane (slotHeader storage .b) <;> simp
  · cases slotHeaderLooksSane (slotHeader storage .a) <;> simp

/-- `slot_write` spares the slot the reader picks exactly when the other header
does not outrank it. -/
theorem slotWrite_spares_active_iff {storage : Storage} {buf : List UInt8} {id : SlotId} {len : Nat}
    (room : slotPayloadMaxBytes ≤ buf.length) (payload : SlotPayload)
    (picked : (slotPickActive .none storage buf).1 = .ok (id, len)) :
    ((slotWriteTarget (fun _ => false) storage).1 = id.other ∧
        slotRegion (slotWrite .none storage payload.bytes).2 id = slotRegion storage id) ↔
      ¬SlotOutranked storage id := by
  obtain ⟨seq, held, chosen, copy, -⟩ := slotPickActive_ok room picked
  rw [← outranked_iff_of_valid copy, ← DoubleBuffer.target_eq_other_iff (· + 1) 1 copy,
    ← slotWriteTarget_eq_pair]
  constructor
  · exact And.left
  · intro spared
    refine ⟨spared, ?_⟩
    have kept := slotWrite_spares .none storage payload
    rw [SlotWriteFaults.none, spared, DoubleBuffer.Side.other_other] at kept
    exact kept

/-- Slot A valid with sequence number 1; slot B with sequence number 2 and one
payload byte changed after its commit. -/
def staleNewerImage : Storage where
  bytes :=
    (slotNewHeader 1 [0x11]).toBytes ++ 0x11 :: List.replicate 2027 0xFF ++
      ((slotNewHeader 2 [0x22]).toBytes ++ 0x23 :: List.replicate 2027 0xFF)
  size_eq := by decide +kernel

theorem slotWrite_overwrites_active :
    (slotPickActive .none staleNewerImage (List.replicate 2028 0)).1 = .ok (.a, 1) ∧
      ¬((slotWriteTarget (fun _ => false) staleNewerImage).1 = DoubleBuffer.Side.other .a ∧
        slotRegion (slotWrite .none staleNewerImage [0x33]).2 .a =
          slotRegion staleNewerImage .a) ∧
      slotRegion (slotWrite .none staleNewerImage [0x33]).2 .a ≠ slotRegion staleNewerImage .a := by
  decide +kernel

theorem slotWrite_spares_sole_slot :
    (slotWriteTarget (fun _ => false) (slotWrite .none storageInit [0x11]).2).1 =
        DoubleBuffer.Side.other .a ∧
      slotRegion (slotWrite .none (slotWrite .none storageInit [0x11]).2 [0x22]).2 .a =
        slotRegion (slotWrite .none storageInit [0x11]).2 .a :=
  (@slotWrite_spares_active_iff (slotWrite .none storageInit [0x11]).2 (List.replicate 2028 0) .a 1
    List.length_replicate.ge ⟨[0x22], by decide, by decide⟩ (by decide +kernel)).mpr
    (by unfold SlotOutranked; decide +kernel)

end ConfigWp
