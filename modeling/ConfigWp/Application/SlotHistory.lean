import ConfigWp.Application.SlotCorruption
import Mathlib.Data.List.Induction

/-! Runs of `slot_write` without a bound on their length. The reader keeps up with the
writer for 2^32 - 1 completed writes. The next sequence number wraps to zero, and what is
written from then on is never read, though every write reports success. -/

set_option autoImplicit false

namespace ConfigWp

open DoubleBuffer (Front)

/-- The last sequence number before the wrap. -/
def slotSeqMax : Nat := 0xFFFFFFFF

/-- The payload of a call that commits it. -/
def SlotWriteCall.committed? (call : SlotWriteCall) : Option SlotPayload :=
  match call.ending with
  | .completed => some call.payload
  | _ => none

/-- The payloads committed by a run, in their order. -/
def committedPayloads (calls : List SlotWriteCall) : List SlotPayload :=
  calls.filterMap SlotWriteCall.committed?

/-- The payload that the reader finds after these commits. -/
def lastReadable (committed : List SlotPayload) : Option SlotPayload :=
  (committed.take slotSeqMax).getLast?

/-- The copy in front holds the last payload before the wrap, under the number of commits
up to there. -/
def SlotHistory (storage : Storage) (committed : List SlotPayload) : Prop :=
  match lastReadable committed with
  | none => committed = [] ∧ ∀ id, (slotPair storage id).stamp? = none
  | some payload => ∃ id seq, Front (slotPair storage) id seq payload.bytes ∧
      seq.toNat = min committed.length slotSeqMax

section Steps

variable {storage : Storage} {committed : List SlotPayload}

theorem lastReadable_snoc_below (payload : SlotPayload) (below : committed.length < slotSeqMax) :
    lastReadable (committed ++ [payload]) = some payload := by
  rw [lastReadable, List.take_of_length_le (by rw [List.length_append]; exact below)]
  exact List.getLast?_concat

theorem lastReadable_snoc_above (payload : SlotPayload) (above : slotSeqMax ≤ committed.length) :
    lastReadable (committed ++ [payload]) = lastReadable committed := by
  rw [lastReadable, lastReadable, List.take_append_of_le_length above]

theorem slotHistory_erased : SlotHistory storageInit [] := ⟨rfl, slotPair_erased⟩

theorem SlotHistory.completed (history : SlotHistory storage committed) (payload : SlotPayload) :
    SlotHistory (slotWrite .none storage payload.bytes).2 (committed ++ [payload]) := by
  have written := (slotWrite_commit storage payload).2
  unfold SlotHistory at history ⊢
  rw [written]
  cases readable : lastReadable committed with
  | none =>
      rw [readable] at history
      obtain ⟨rfl, blank⟩ := history
      rw [lastReadable_snoc_below payload (by decide)]
      exact ⟨.a, 1, DoubleBuffer.front_first (· + 1) 1 blank payload.bytes, rfl⟩
  | some last =>
      rw [readable] at history
      obtain ⟨id, seq, front, counted⟩ := history
      have size : (committed ++ [payload]).length = committed.length + 1 := List.length_append
      by_cases below : committed.length < slotSeqMax
      · have bumped : (seq + 1).toNat = seq.toNat + 1 := by
          simp only [slotSeqMax] at below counted
          rw [UInt32.toNat_add, UInt32.toNat_one]
          omega
        rw [lastReadable_snoc_below payload below]
        refine ⟨_, _, front.commit ?_ payload.bytes, ?_⟩
        · rw [UInt32.lt_iff_toNat_lt, bumped]
          exact Nat.lt_succ_self _
        · rw [bumped, size, counted]
          omega
      · have full : seq.toNat = slotSeqMax := by omega
        have wrapped : (seq + 1).toNat = 0 := by
          rw [UInt32.toNat_add, full]
          rfl
        rw [lastReadable_snoc_above payload (Nat.not_lt.mp below), readable]
        refine ⟨_, _, front.stuck ?_ payload.bytes, by omega⟩
        rw [UInt32.lt_iff_toNat_lt, wrapped, full]
        decide

theorem SlotHistory.torn (history : SlotHistory storage committed) {faults : SlotWriteFaults}
    {payload : SlotPayload} (readable : faults.header = fun _ => false)
    (stopped : faults.payloadWrite ≠ .complete ∨ faults.headerWrite = .cut 0) :
    SlotHistory (slotWrite faults storage payload.bytes).2 committed := by
  obtain ⟨torn, stamped, written⟩ := @slotWrite_torn faults storage payload stopped
  rw [readable, slotWriteTarget_eq_pair] at stamped written
  unfold SlotHistory at history ⊢
  rw [written]
  cases found : lastReadable committed with
  | none =>
      rw [found] at history
      refine ⟨history.1, fun id => ?_⟩
      by_cases target : id = (DoubleBuffer.target (· + 1) 1 (slotPair storage)).1
      · rw [target, Function.update_self, stamped]
        exact history.2 _
      · rw [Function.update_of_ne target]
        exact history.2 id
  | some last =>
      rw [found] at history
      obtain ⟨id, seq, front, counted⟩ := history
      rw [front.target] at stamped ⊢
      exact ⟨id, seq, front.damaged stamped, counted⟩

theorem SlotHistory.step (history : SlotHistory storage committed) (call : SlotWriteCall) :
    SlotHistory (slotWriteCall storage call) (committed ++ committedPayloads [call]) := by
  obtain ⟨payload, ending⟩ := call
  cases ending with
  | completed => exact history.completed payload
  | payloadCut written =>
      rw [committedPayloads, List.filterMap_cons, SlotWriteCall.committed?, List.filterMap_nil,
        List.append_nil]
      exact history.torn rfl (.inl (by simp [SlotWriteEnd.faults]))
  | headerMissing =>
      rw [committedPayloads, List.filterMap_cons, SlotWriteCall.committed?, List.filterMap_nil,
        List.append_nil]
      exact history.torn rfl (.inr rfl)

theorem slotHistory_run (calls : List SlotWriteCall) :
    SlotHistory (Machine.run slotWriteCall storageInit calls) (committedPayloads calls) := by
  induction calls using List.reverseRecOn with
  | nil => exact slotHistory_erased
  | append_singleton calls call ih =>
      rw [Machine.run_append, committedPayloads, List.filterMap_append]
      exact ih.step call

end Steps

/-- However long a run from erased storage is, every completed write reports success, and
the reader finds the last of the first 2^32 - 1 committed payloads. -/
theorem slotPickActive_after_any_run (calls : List SlotWriteCall) {buf : List UInt8}
    (room : slotPayloadMaxBytes ≤ buf.length) {storage : Storage}
    (reached : storage = Machine.run slotWriteCall storageInit calls) :
    (lastReadable (committedPayloads calls) = none →
      (slotPickActive .none storage buf).1 = .error .errNoValid) ∧
    (∀ payload, lastReadable (committedPayloads calls) = some payload →
      ∃ id, (slotPickActive .none storage buf).1 = .ok (id, payload.bytes.length) ∧
        (slotPickActive .none storage buf).2.take payload.bytes.length = payload.bytes) ∧
    ∀ earlier call later, calls = earlier ++ call :: later → call.ending = .completed →
      (slotWrite call.ending.faults (Machine.run slotWriteCall storageInit earlier)
        call.payload.bytes).1 = .ok () := by
  have history := slotHistory_run calls
  rw [← reached, SlotHistory] at history
  refine ⟨fun absent => ?_, fun payload found => ?_, fun earlier call later _ ended => ?_⟩
  · rw [absent] at history
    refine slotPickActive_noValid room (DoubleBuffer.newest_eq_none_iff.mpr fun id => ?_)
    have blank := slotCopies_eq_blank (history.2 id)
    simp only [slotPair, blank, DoubleBuffer.Copy.content?_blank]
  · rw [found] at history
    obtain ⟨id, seq, front, -⟩ := history
    obtain ⟨answer, same, -⟩ := slotPickActive_of_newest room front.newest front.copy rfl
    exact ⟨id, answer, same⟩
  · rw [ended]
    exact (slotWrite_commit _ call.payload).1

/-- A commit, a torn write, and another commit. -/
def threeCalls : List SlotWriteCall :=
  [⟨⟨[1, 2], by decide, by decide⟩, .completed⟩,
    ⟨⟨[3, 4, 5], by decide, by decide⟩, .payloadCut 1⟩,
    ⟨⟨[6], by decide, by decide⟩, .completed⟩]

theorem slotPickActive_after_three :
    ∃ id, (slotPickActive .none (Machine.run slotWriteCall storageInit threeCalls)
        (List.replicate 2028 0)).1 = .ok (id, 1) ∧
      (slotPickActive .none (Machine.run slotWriteCall storageInit threeCalls)
        (List.replicate 2028 0)).2.take 1 = [6] :=
  (slotPickActive_after_any_run threeCalls List.length_replicate.ge rfl).2.1
    ⟨[6], by decide, by decide⟩ rfl

/-! Damage to a slot after its commit. -/

/-- The other slot is untouched, and this one fails its check. -/
structure SlotDamage (id : SlotId) (storage changed : Storage) : Prop where
  spared : slotRegion changed id.other = slotRegion storage id.other
  broken : ¬SlotValid changed id

theorem ConfinedTo.spared {start count : Nat} {id : SlotId} {storage changed : Storage}
    (confined : ConfinedTo start count storage changed) (above : slotOffset id ≤ start)
    (below : start + count ≤ slotOffset id + slotTotalBytes) :
    slotRegion changed id.other = slotRegion storage id.other := by
  have apart := slotOffset_apart id
  exact confined.window_eq (by omega)

/-- A short burst is damage to the slot that it hits. -/
theorem ShortBurst.damage {id : SlotId} {storage changed : Storage} (valid : SlotValid storage id)
    (burst : ShortBurst id storage changed) : SlotDamage id storage changed := by
  cases burst with
  | payload start count short inside confined =>
      have fits := ((slotHeaderLooksSane_iff _).mp valid.sane).2.2.2
      refine ⟨confined.spared ?_ ?_, not_slotValid_of_payload valid short inside confined⟩
      · rw [slotPayloadOffset]
        omega
      · rw [slotPayloadOffset, slotTotalBytes]
        omega
  | seq confined =>
      refine ⟨confined.spared (Nat.le_add_right _ _) ?_, not_slotValid_of_seq valid confined⟩
      rw [slotTotalBytes, slotHeaderBytes]
      omega
  | crc32 confined =>
      refine ⟨confined.spared (Nat.le_add_right _ _) ?_, not_slotValid_of_crc32 valid confined⟩
      rw [slotTotalBytes, slotHeaderBytes]
      omega

section Damage

variable {storage changed : Storage} {id : SlotId}

theorem SlotDamage.content? (damage : SlotDamage id storage changed) :
    (slotPair changed id).content? = none := by
  cases copy : slotPair changed id with
  | valid seq payload =>
      obtain ⟨⟨-, sane⟩, ⟨-, intact⟩, -, rfl⟩ := slotCopies_eq_valid_iff.mp copy
      exact absurd ⟨sane, intact⟩ damage.broken
  | _ => rfl

/-- The other slot is what is left to read. -/
theorem SlotDamage.newest (damage : SlotDamage id storage changed) {seq : UInt32}
    {payload : List UInt8} (copy : slotPair storage id.other = .valid seq payload) :
    DoubleBuffer.newest (slotPair changed) = some id.other ∧
      slotPair changed id.other = .valid seq payload := by
  have kept : slotPair changed id.other = .valid seq payload :=
    (slotCopies_congr damage.spared).trans copy
  refine ⟨DoubleBuffer.newest_sole kept ?_, kept⟩
  rw [DoubleBuffer.Side.other_other]
  exact damage.content?

end Damage

end ConfigWp
