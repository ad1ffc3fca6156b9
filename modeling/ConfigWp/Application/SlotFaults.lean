import ConfigWp.Application.SlotRuns

/-! A write followed by a boot. On any image below the wrap horizon a write whose
header reads succeed is what the next boot reads. When a header read fails, the
writer takes that slot for absent, and a slot it could not see may outrank the
one it wrote. -/

set_option autoImplicit false

namespace ConfigWp

open DoubleBuffer (Copy Pair)

/-- The next boot finds exactly this payload. -/
def Boots (storage : Storage) (payload buf : List UInt8) : Prop :=
  ∃ id, (slotPickActive .none storage buf).1 = .ok (id, payload.length) ∧
    (slotPickActive .none storage buf).2.take payload.length = payload

theorem boots_iff {storage : Storage} {payload buf : List UInt8}
    (room : slotPayloadMaxBytes ≤ buf.length) :
    Boots storage payload buf ↔ DoubleBuffer.read (slotPair storage) = some payload := by
  rw [← readPayload_none]
  constructor
  · rintro ⟨id, picked, front⟩
    obtain ⟨seq, held, chosen, copy, -, same⟩ := slotPickActive_ok room picked
    rw [readPayload_none, DoubleBuffer.read_of_newest chosen copy, ← same, front]
  · exact slotPickActive_some room

/-- A write whose accesses succeed is what the next boot reads, whatever was left in
the two slots. -/
theorem slotWrite_boots {storage : Storage} (below : SeqUnwrapped storage) (payload : SlotPayload)
    {buf : List UInt8} (room : slotPayloadMaxBytes ≤ buf.length) :
    (slotWrite .none storage payload.bytes).1 = .ok () ∧
      Boots (slotWrite .none storage payload.bytes).2 payload.bytes buf := by
  obtain ⟨succeeded, written⟩ := slotWrite_commit storage payload
  refine ⟨succeeded, (boots_iff room).mpr ?_⟩
  rw [written]
  exact (DoubleBuffer.settled_commit (· + 1) 1 below.unwrapped payload.bytes).read

theorem slotWrite_boots_over_stale :
    (slotWrite .none staleNewerImage [0x33]).1 = .ok () ∧
      Boots (slotWrite .none staleNewerImage [0x33]).2 [0x33] (List.replicate 2028 0) :=
  @slotWrite_boots staleNewerImage (by intro id _; cases id <;> decide +kernel)
    ⟨[0x33], by decide, by decide⟩ (List.replicate 2028 0) List.length_replicate.ge

/-! Header reads that fail. -/

theorem slotWriteSeq_eq_some_iff {fails : Bool} {storage : Storage} {id : SlotId} {seq : UInt32} :
    slotWriteSeq fails storage id = some seq ↔
      fails = false ∧ slotHeaderLooksSane (slotHeader storage id) = true ∧
        (slotHeader storage id).seq = seq := by
  rw [slotWriteSeq_eq]
  cases fails <;> cases slotHeaderLooksSane (slotHeader storage id) <;> simp

theorem slotWriteSeq_eq_none_iff {fails : Bool} {storage : Storage} {id : SlotId} :
    slotWriteSeq fails storage id = none ↔
      fails = true ∨ slotHeaderLooksSane (slotHeader storage id) = false := by
  rw [slotWriteSeq_eq]
  cases fails <;> cases slotHeaderLooksSane (slotHeader storage id) <;> simp

/-- What the header scan can lead to: a fresh start in slot A when it sees no slot, or
the number after the one of a slot it sees, in the other slot. -/
theorem slotWriteTarget_cases (fails : SlotId → Bool) (storage : Storage) :
    (slotWriteTarget fails storage = (.a, 1) ∧
        ∀ id, slotWriteSeq (fails id) storage id = none) ∨
      ∃ id seq, slotWriteTarget fails storage = (id, seq + 1) ∧
        slotWriteSeq (fails id.other) storage id.other = some seq := by
  unfold slotWriteTarget
  cases left : slotWriteSeq (fails .a) storage .a with
  | none =>
      cases right : slotWriteSeq (fails .b) storage .b with
      | none =>
          refine .inl ⟨rfl, ?_⟩
          intro id
          cases id with
          | a => exact left
          | b => exact right
      | some later => exact .inr ⟨.a, later, rfl, right⟩
  | some earlier =>
      cases right : slotWriteSeq (fails .b) storage .b with
      | none => exact .inr ⟨.b, earlier, rfl, left⟩
      | some later =>
          by_cases newer : earlier ≥ later
          · exact .inr ⟨.b, earlier, if_pos newer, left⟩
          · exact .inr ⟨.a, later, if_neg newer, right⟩

private theorem outranked_replaced {pair : Pair UInt32 (List UInt8)} {id : SlotId}
    {seq later : UInt32} {payload held : List UInt8} (copy : pair id.other = .valid later held) :
    DoubleBuffer.Outranked (Function.update pair id (.valid seq payload)) id ↔
      match id with
      | .a => seq < later
      | .b => seq ≤ later := by
  have stamp : (Function.update pair id (.valid seq payload) id).stamp? = some seq := by
    rw [Function.update_self, Copy.stamp?_valid]
  have stampOther :
      (Function.update pair id (.valid seq payload) id.other).stamp? = some later := by
    rw [Function.update_of_ne (DoubleBuffer.Side.other_ne id), copy, Copy.stamp?_valid]
  cases id with
  | a => exact DoubleBuffer.outranked_iff_of_stamps stamp stampOther .a
  | b => exact DoubleBuffer.outranked_iff_of_stamps stampOther stamp .b

private theorem not_outranked_replaced {pair : Pair UInt32 (List UInt8)} {id : SlotId}
    {seq later : UInt32} {payload held : List UInt8} (copy : pair id.other = .valid later held)
    (above : later < seq) :
    ¬DoubleBuffer.Outranked (Function.update pair id (.valid seq payload)) id := by
  rw [outranked_replaced copy]
  cases id with
  | a => exact not_lt.mpr above.le
  | b => exact not_le.mpr above

/-- Slot B could not be read although it holds another valid payload under a number
above 1, and the scan saw no slot A to go by either. -/
structure HidesNewer (fails : SlotId → Bool) (storage : Storage) (payload : List UInt8) : Prop where
  unread : fails .b = true
  alone : fails .a = true ∨ slotHeaderLooksSane (slotHeader storage .a) = false
  newer : ∃ seq held, slotPair storage .b = .valid seq held ∧ 1 < seq ∧ held ≠ payload

/-- A write that reports success is what the next boot reads, exactly when the failed
header reads did not hide a newer slot B: the writer takes a slot it cannot read for
one it is about to overwrite, but without a slot A it overwrites slot A. -/
theorem slotWrite_boots_iff {storage : Storage} (below : SeqUnwrapped storage)
    {faults : SlotWriteFaults} (sent : faults.payloadWrite = .complete)
    (committed : faults.headerWrite = .complete) (payload : SlotPayload) {buf : List UInt8}
    (room : slotPayloadMaxBytes ≤ buf.length) :
    ((slotWrite faults storage payload.bytes).1 = .ok () →
        Boots (slotWrite faults storage payload.bytes).2 payload.bytes buf) ↔
      ¬HidesNewer faults.header storage payload.bytes := by
  obtain ⟨succeeded, replaced⟩ := @slotWrite_complete faults storage payload sent committed
  rw [succeeded, boots_iff room, replaced,
    DoubleBuffer.read_eq_some_iff (Function.update_self _ _ _)]
  simp only [forall_const, Function.update_of_ne (DoubleBuffer.Side.other_ne _)]
  rcases slotWriteTarget_cases faults.header storage with ⟨start, unseen⟩ | ⟨id, seq, bumped, seen⟩
  · rw [start]
    have alone := slotWriteSeq_eq_none_iff.mp (unseen .a)
    constructor
    · rintro all ⟨-, -, seq, held, copy, above, apart⟩
      exact apart (all seq held copy ((@outranked_replaced _ .a _ _ _ _ copy).mpr above))
    · intro seeing seq held outranking outranked
      by_contra apart
      have copy : slotPair storage .b = .valid seq held := outranking
      have above := (@outranked_replaced _ .a _ _ _ _ copy).mp outranked
      have sane := (slotCopies_eq_valid_iff.mp copy).1.2
      have unread := slotWriteSeq_eq_none_iff.mp (unseen .b)
      exact seeing ⟨unread.resolve_right (by simp [sane]), alone, seq, held, copy, above, apart⟩
  · rw [bumped]
    obtain ⟨readable, sane, numbered⟩ := slotWriteSeq_eq_some_iff.mp seen
    constructor
    · rintro - ⟨unread, alone, -⟩
      cases id with
      | a => simp [DoubleBuffer.Side.other, unread] at readable
      | b =>
          simp only [DoubleBuffer.Side.other] at readable sane
          simp [readable, sane] at alone
    · intro _ later held copy outranked
      -- The number after the one the scan saw is above it, so the new copy wins.
      have stamp := (slotCopies_eq_valid_iff.mp copy).2.2.1
      have above : seq < seq + 1 := by
        refine below.unwrapped id.other seq ?_
        rw [copy, Copy.stamp?_valid, ← stamp, numbered]
      rw [← stamp, numbered] at copy
      exact absurd outranked (not_outranked_replaced copy above)

/-- Slot A holds sequence number 1 and slot B sequence number 2. -/
def bothSlotsImage : Storage := (slotWrite .none (slotWrite .none storageInit [0x11]).2 [0x22]).2

private theorem bothSlotsImage_below : SeqUnwrapped bothSlotsImage := by
  intro id _
  cases id <;> decide +kernel

def unreadable (fails : SlotId → Bool) : SlotWriteFaults := ⟨fails, .complete, .complete⟩

theorem slotWrite_loses_to_hidden :
    SeqUnwrapped bothSlotsImage ∧
      ¬((slotWrite (unreadable fun _ => true) bothSlotsImage [0x33]).1 = .ok () →
        Boots (slotWrite (unreadable fun _ => true) bothSlotsImage [0x33]).2 [0x33]
          (List.replicate 2028 0)) := by
  have room : slotPayloadMaxBytes ≤ (List.replicate 2028 (0 : UInt8)).length :=
    List.length_replicate.ge
  refine ⟨bothSlotsImage_below, ?_⟩
  rw [boots_iff room]
  decide +kernel

theorem slotWrite_boots_despite_fault :
    (slotWrite (unreadable (· == .a)) bothSlotsImage [0x33]).1 = .ok () ∧
      Boots (slotWrite (unreadable (· == .a)) bothSlotsImage [0x33]).2 [0x33]
        (List.replicate 2028 0) := by
  have succeeded : (slotWrite (unreadable (· == .a)) bothSlotsImage [0x33]).1 = .ok () := by
    decide +kernel
  refine ⟨succeeded, ?_⟩
  have found := @slotWrite_boots_iff bothSlotsImage bothSlotsImage_below (unreadable (· == .a))
    rfl rfl ⟨[0x33], by decide, by decide⟩ (List.replicate 2028 0) List.length_replicate.ge
  refine found.mpr ?_ succeeded
  rintro ⟨unread, -⟩
  cases unread

end ConfigWp
