import ConfigWp.Application.SlotFaults
import ConfigWp.Library.Traced

/-! What `slot_pick_active` reads. The same call as a program against the medium,
every `storage_read` leaving an entry in the trace; it returns what the plain
model returns, changes nothing and stays inside the slot it looks at. With the
attempted reads in view the three verdicts are exact. -/

set_option autoImplicit false

namespace ConfigWp

open Traced (Observes Program)

/-- One `storage_read`: the slot it is made for, the range asked for, and whether
it failed. -/
structure StorageAccess where
  id : SlotId
  offset : Nat
  len : Nat
  failed : Bool
  deriving DecidableEq, Repr

def StorageAccess.InSlot (access : StorageAccess) : Prop :=
  slotOffset access.id ≤ access.offset ∧
    access.offset + access.len ≤ slotOffset access.id + slotTotalBytes

abbrev SlotProgram (α : Type) := Program Storage StorageAccess α

def storageReadProgram (fails : Bool) (id : SlotId) (offset len : Nat) :
    SlotProgram (Except StorageStatus (List UInt8)) :=
  ⟨fun storage =>
    let got := storageReadFaulty fails storage offset len
    ⟨got, storage, [⟨id, offset, len, !got.toBool⟩]⟩⟩

def slotReadHeaderProgram (fails : Bool) (id : SlotId) : SlotProgram (Option SlotHeader) := do
  match ← storageReadProgram fails id (slotOffset id) slotHeaderBytes with
  | .ok bytes => pure (some (SlotHeader.ofBytes bytes))
  | .error _ => pure none

def slotValidateFullProgram (fails : Bool) (id : SlotId) (hdr : SlotHeader) (buf : List UInt8) :
    SlotProgram SlotCheck :=
  if !slotHeaderLooksSane hdr then pure ⟨false, false, buf⟩
  else if hdr.length.toNat > buf.length then pure ⟨false, false, buf⟩
  else do
    match ← storageReadProgram fails id (slotPayloadOffset id) hdr.length.toNat with
    | .error _ => pure ⟨false, true, buf⟩
    | .ok payload =>
        pure ⟨slotCrc hdr payload == hdr.crc32, false, Splice.overwrite buf 0 payload⟩

def slotScanStepProgram (faults : SlotReadFaults) (scan : SlotScan) (id : SlotId) :
    SlotProgram SlotScan := do
  match ← slotReadHeaderProgram (faults.header id) id with
  | none => pure { scan with storageError := true }
  | some hdr =>
      let check ← slotValidateFullProgram (faults.payload id) id hdr scan.buf
      pure
        { valid := Function.update scan.valid id (if check.valid then some hdr else none)
          storageError := scan.storageError || check.storageError
          buf := check.buf }

def slotScanProgram (faults : SlotReadFaults) (buf : List UInt8) : SlotProgram SlotScan :=
  ([.a, .b] : List SlotId).foldlM (slotScanStepProgram faults) ⟨fun _ => none, false, buf⟩

def slotPickActiveProgram (faults : SlotReadFaults) (buf : List UInt8) :
    SlotProgram (Except SlotStatus (SlotId × Nat) × List UInt8) :=
  if buf.length < slotPayloadMaxBytes then pure (.error .errBuf, buf)
  else do
    let scan ← slotScanProgram faults buf
    match slotScanWinner scan with
    | none => pure (.error (if scan.storageError then .errStorage else .errNoValid), scan.buf)
    | some (winner, hdr) =>
        match ← storageReadProgram faults.winner winner (slotPayloadOffset winner)
            hdr.length.toNat with
        | .error _ => pure (.error .errStorage, scan.buf)
        | .ok payload => pure (.ok (winner, hdr.length.toNat), Splice.overwrite scan.buf 0 payload)

/-- The reads a call attempts, in order. -/
def slotPickActiveReads (faults : SlotReadFaults) (storage : Storage) (buf : List UInt8) :
    List StorageAccess :=
  ((slotPickActiveProgram faults buf).run storage).trace

/-! Each program returns what the plain model returns and reads inside its slot. -/

theorem observes_storageRead {allowed : StorageAccess → Prop} (fails : Bool) (storage : Storage)
    (id : SlotId) (offset len : Nat) (inside : ∀ failed, allowed ⟨id, offset, len, failed⟩) :
    Observes allowed storage (storageReadProgram fails id offset len)
      (storageReadFaulty fails storage offset len) := by
  refine ⟨rfl, rfl, ?_⟩
  intro access made
  rw [storageReadProgram, List.mem_singleton] at made
  exact made ▸ inside _

theorem observes_slotReadHeader (fails : Bool) (storage : Storage) (id : SlotId) :
    Observes StorageAccess.InSlot storage (slotReadHeaderProgram fails id)
      (slotReadHeader fails storage id) := by
  refine Observes.bind (observes_storageRead fails storage id _ _ ?_) ?_
  · intro failed
    exact ⟨Nat.le_refl _, Nat.add_le_add_left (Nat.le_add_right _ _) _⟩
  · rw [slotReadHeader]
    cases storageReadFaulty fails storage (slotOffset id) slotHeaderBytes with
    | error status => exact Traced.observes_pure none
    | ok bytes => exact Traced.observes_pure _

theorem inSlot_payload {hdr : SlotHeader} (sane : slotHeaderLooksSane hdr = true) (id : SlotId)
    (failed : Bool) :
    StorageAccess.InSlot ⟨id, slotPayloadOffset id, hdr.length.toNat, failed⟩ := by
  have fits := ((slotHeaderLooksSane_iff hdr).mp sane).2.2.2
  constructor
  · exact Nat.le_add_right _ _
  · rw [slotPayloadOffset, Nat.add_assoc, slotTotalBytes]
    exact Nat.add_le_add_left (Nat.add_le_add_left fits _) _

theorem observes_slotValidateFull (fails : Bool) (storage : Storage) (id : SlotId)
    (hdr : SlotHeader) (buf : List UInt8) :
    Observes StorageAccess.InSlot storage (slotValidateFullProgram fails id hdr buf)
      (slotValidateFull fails storage id hdr buf) := by
  rw [slotValidateFullProgram, slotValidateFull]
  split_ifs with insane large
  · exact Traced.observes_pure _
  · exact Traced.observes_pure _
  · have sane : slotHeaderLooksSane hdr = true := by simpa using insane
    refine Observes.bind (observes_storageRead fails storage id _ _ (inSlot_payload sane id)) ?_
    cases storageReadFaulty fails storage (slotPayloadOffset id) hdr.length.toNat with
    | error status => exact Traced.observes_pure _
    | ok payload => exact Traced.observes_pure _

theorem observes_slotScanStep (faults : SlotReadFaults) (storage : Storage) (scan : SlotScan)
    (id : SlotId) :
    Observes StorageAccess.InSlot storage (slotScanStepProgram faults scan id)
      (slotScanStep faults storage scan id) := by
  refine Observes.bind (observes_slotReadHeader (faults.header id) storage id) ?_
  rw [slotScanStep]
  cases slotReadHeader (faults.header id) storage id with
  | none => exact Traced.observes_pure _
  | some hdr =>
      exact (observes_slotValidateFull _ storage id hdr scan.buf).bind (Traced.observes_pure _)

theorem observes_slotScan (faults : SlotReadFaults) (storage : Storage) (buf : List UInt8) :
    Observes StorageAccess.InSlot storage (slotScanProgram faults buf)
      (slotScan faults storage buf) :=
  Traced.observes_foldlM (observes_slotScanStep faults storage) _ _

theorem slotScanWinner_sane {faults : SlotReadFaults} {storage : Storage} {buf : List UInt8}
    {winner : SlotId} {hdr : SlotHeader} (room : slotPayloadMaxBytes ≤ buf.length)
    (won : slotScanWinner (slotScan faults storage buf) = some (winner, hdr)) :
    hdr = slotHeader storage winner ∧ slotHeaderLooksSane hdr = true ∧
      DoubleBuffer.newest (slotCopies faults storage) = some winner := by
  rw [slotScanWinner_eq faults storage room, Option.map_eq_some_iff] at won
  obtain ⟨id, chosen, same⟩ := won
  obtain ⟨rfl, rfl⟩ := Prod.mk.inj same
  obtain ⟨seq, payload, copy⟩ := DoubleBuffer.newest_valid chosen
  exact ⟨rfl, (slotCopies_eq_valid_iff.mp copy).1.2, chosen⟩

/-- The call against the medium returns what the plain model returns, leaves the
medium as it was and reads within the slot it is looking at. -/
theorem observes_slotPickActive (faults : SlotReadFaults) (storage : Storage) (buf : List UInt8) :
    Observes StorageAccess.InSlot storage (slotPickActiveProgram faults buf)
      (slotPickActive faults storage buf) := by
  rw [slotPickActiveProgram, slotPickActive]
  split_ifs with small
  · exact Traced.observes_pure _
  refine (observes_slotScan faults storage buf).bind ?_
  dsimp only
  cases won : slotScanWinner (slotScan faults storage buf) with
  | none => exact Traced.observes_pure _
  | some best =>
      obtain ⟨winner, hdr⟩ := best
      have sane := (slotScanWinner_sane (Nat.not_lt.mp small) won).2.1
      refine Observes.bind
        (observes_storageRead faults.winner storage winner _ _ (inSlot_payload sane winner)) ?_
      dsimp only
      cases storageReadFaulty faults.winner storage (slotPayloadOffset winner)
          hdr.length.toNat with
      | error status => exact Traced.observes_pure _
      | ok payload => exact Traced.observes_pure _

/-! Which attempted reads fail. -/

def anyFailed (reads : List StorageAccess) : Bool := reads.any (·.failed)

theorem anyFailed_append (early late : List StorageAccess) :
    anyFailed (early ++ late) = (anyFailed early || anyFailed late) := List.any_append

theorem anyFailed_storageRead (fails : Bool) (storage : Storage) (id : SlotId) (offset len : Nat) :
    anyFailed ((storageReadProgram fails id offset len).run storage).trace =
      !(storageReadFaulty fails storage offset len).toBool := by
  simp [anyFailed, storageReadProgram]

theorem anyFailed_slotReadHeader (fails : Bool) (storage : Storage) (id : SlotId) :
    anyFailed ((slotReadHeaderProgram fails id).run storage).trace =
      (slotReadHeader fails storage id).isNone := by
  rw [slotReadHeaderProgram, Traced.run_bind, anyFailed_append, anyFailed_storageRead,
    slotReadHeader, storageReadProgram]
  dsimp only
  cases storageReadFaulty fails storage (slotOffset id) slotHeaderBytes <;> rfl

theorem anyFailed_slotValidateFull (fails : Bool) (storage : Storage) (id : SlotId)
    (hdr : SlotHeader) (buf : List UInt8) :
    anyFailed ((slotValidateFullProgram fails id hdr buf).run storage).trace =
      (slotValidateFull fails storage id hdr buf).storageError := by
  rw [slotValidateFullProgram, slotValidateFull]
  split_ifs with insane large
  · rfl
  · rfl
  · rw [Traced.run_bind, anyFailed_append, anyFailed_storageRead, storageReadProgram]
    dsimp only
    cases storageReadFaulty fails storage (slotPayloadOffset id) hdr.length.toNat <;> rfl

theorem anyFailed_slotScanStep (faults : SlotReadFaults) (storage : Storage) (scan : SlotScan)
    (id : SlotId) :
    (slotScanStep faults storage scan id).storageError =
      (scan.storageError ||
        anyFailed ((slotScanStepProgram faults scan id).run storage).trace) := by
  rw [slotScanStepProgram, Traced.run_bind, anyFailed_append, anyFailed_slotReadHeader,
    (observes_slotReadHeader (faults.header id) storage id).value_eq,
    (observes_slotReadHeader (faults.header id) storage id).state_eq, slotScanStep]
  cases slotReadHeader (faults.header id) storage id with
  | none => simp
  | some hdr =>
      simp [Traced.run_bind, Traced.run_pure, anyFailed_slotValidateFull]

/-- The flag the calls share is set exactly when one of the scan's reads failed. -/
theorem anyFailed_slotScan (faults : SlotReadFaults) (storage : Storage) (buf : List UInt8) :
    anyFailed ((slotScanProgram faults buf).run storage).trace =
      (slotScan faults storage buf).storageError := by
  rw [← (observes_slotScan faults storage buf).value_eq]
  refine Traced.foldlM_invariant (slotScanStepProgram faults) storage
    (fun seen scan => anyFailed seen = scan.storageError) ?_ ?_ [.a, .b] [] _ rfl
  · intro scan id
    exact (observes_slotScanStep faults storage scan id).state_eq
  · intro seen scan id flagged
    rw [anyFailed_append, flagged, (observes_slotScanStep faults storage scan id).value_eq,
      anyFailed_slotScanStep]

/-! The three verdicts. -/

def slotPayload (storage : Storage) (id : SlotId) : List UInt8 :=
  regionPayload (slotRegion storage id) (slotHeader storage id)

structure SlotValid (storage : Storage) (id : SlotId) : Prop where
  sane : slotHeaderLooksSane (slotHeader storage id) = true
  intact : slotCrc (slotHeader storage id) (slotPayload storage id) =
    (slotHeader storage id).crc32

/-- A valid slot whose header and payload reads succeed. -/
structure SlotUsable (faults : SlotReadFaults) (storage : Storage) (id : SlotId) : Prop where
  header : faults.header id = false
  payload : faults.payload id = false
  valid : SlotValid storage id

/-- The highest sequence number among the usable slots, slot A on a tie. -/
structure SlotNewest (faults : SlotReadFaults) (storage : Storage) (id : SlotId) : Prop where
  usable : SlotUsable faults storage id
  highest : ∀ other, SlotUsable faults storage other →
    (slotHeader storage other).seq ≤ (slotHeader storage id).seq
  tie : SlotUsable faults storage .a → (slotHeader storage .a).seq = (slotHeader storage id).seq →
    id = .a

theorem slotUsable_iff {faults : SlotReadFaults} {storage : Storage} {id : SlotId} :
    SlotUsable faults storage id ↔
      slotCopies faults storage id =
        .valid (slotHeader storage id).seq (slotPayload storage id) := by
  rw [slotCopies_eq_valid_iff]
  constructor
  · rintro ⟨header, payload, sane, intact⟩
    exact ⟨⟨header, sane⟩, ⟨payload, intact⟩, rfl, rfl⟩
  · rintro ⟨⟨header, sane⟩, ⟨payload, intact⟩, -⟩
    exact ⟨header, payload, sane, intact⟩

theorem slotUsable_of_valid {faults : SlotReadFaults} {storage : Storage} {id : SlotId}
    {seq : UInt32} {payload : List UInt8}
    (copy : slotCopies faults storage id = .valid seq payload) : SlotUsable faults storage id := by
  obtain ⟨⟨header, sane⟩, ⟨readable, intact⟩, -, rfl⟩ := slotCopies_eq_valid_iff.mp copy
  exact ⟨header, readable, sane, intact⟩

private theorem outranked_usable {faults : SlotReadFaults} {storage : Storage}
    (usableA : SlotUsable faults storage .a) (usableB : SlotUsable faults storage .b)
    (id : SlotId) :
    DoubleBuffer.Outranked (slotCopies faults storage) id ↔
      match id with
      | .a => (slotHeader storage .a).seq < (slotHeader storage .b).seq
      | .b => (slotHeader storage .b).seq ≤ (slotHeader storage .a).seq :=
  DoubleBuffer.outranked_iff_of_stamps
    (by rw [slotUsable_iff.mp usableA, DoubleBuffer.Copy.stamp?_valid])
    (by rw [slotUsable_iff.mp usableB, DoubleBuffer.Copy.stamp?_valid]) id

theorem slotNewest_iff {faults : SlotReadFaults} {storage : Storage} {id : SlotId} :
    DoubleBuffer.newest (slotCopies faults storage) = some id ↔ SlotNewest faults storage id := by
  rw [DoubleBuffer.newest_eq_some_iff]
  constructor
  · rintro ⟨⟨seq, held, copy⟩, kept⟩
    have usable := slotUsable_of_valid copy
    have unbeaten : SlotUsable faults storage id.other →
        ¬DoubleBuffer.Outranked (slotCopies faults storage) id :=
      fun there => kept ⟨_, _, slotUsable_iff.mp there⟩
    cases id with
    | a =>
        refine ⟨usable, ?_, fun _ _ => rfl⟩
        intro other there
        cases other with
        | a => exact le_rfl
        | b => exact not_lt.mp (mt (outranked_usable usable there .a).mpr (unbeaten there))
    | b =>
        have above : SlotUsable faults storage .a →
            (slotHeader storage .a).seq < (slotHeader storage .b).seq := fun there =>
          not_le.mp (mt (outranked_usable there usable .b).mpr (unbeaten there))
        refine ⟨usable, ?_, fun there same => absurd same (above there).ne⟩
        intro other there
        cases other with
        | a => exact (above there).le
        | b => exact le_rfl
  · rintro ⟨usable, highest, tie⟩
    refine ⟨⟨_, _, slotUsable_iff.mp usable⟩, ?_⟩
    rintro ⟨seq, held, copy⟩ outranked
    have there := slotUsable_of_valid copy
    cases id with
    | a =>
        have newer := (outranked_usable usable there .a).mp outranked
        exact absurd newer (not_lt.mpr (highest _ there))
    | b =>
        have level := (outranked_usable there usable .b).mp outranked
        cases tie there (le_antisymm (highest _ there) level)

theorem exists_slotNewest {faults : SlotReadFaults} {storage : Storage} {id : SlotId}
    (usable : SlotUsable faults storage id) : ∃ winner, SlotNewest faults storage winner := by
  obtain ⟨winner, chosen⟩ := DoubleBuffer.newest_isSome_of_valid (slotUsable_iff.mp usable)
  exact ⟨winner, slotNewest_iff.mp chosen⟩

theorem slotUsable_cases (faults : SlotReadFaults) (storage : Storage) :
    (∃ winner, SlotNewest faults storage winner) ∨ ∀ id, ¬SlotUsable faults storage id := by
  by_cases found : ∃ id, SlotUsable faults storage id
  · obtain ⟨id, usable⟩ := found
    exact .inl (exists_slotNewest usable)
  · exact .inr (not_exists.mp found)

theorem length_slotPayload {storage : Storage} {id : SlotId} (valid : SlotValid storage id) :
    (slotPayload storage id).length = (slotHeader storage id).length.toNat :=
  length_regionPayload valid.sane

theorem slotPickActive_of_winner {faults : SlotReadFaults} {storage : Storage} {buf : List UInt8}
    {winner : SlotId} (room : slotPayloadMaxBytes ≤ buf.length)
    (newest : SlotNewest faults storage winner) (readable : faults.winner = false) :
    (slotPickActive faults storage buf).1 =
        .ok (winner, (slotHeader storage winner).length.toNat) ∧
      (slotPickActive faults storage buf).2.take (slotHeader storage winner).length.toNat =
        slotPayload storage winner := by
  obtain ⟨answer, front, -⟩ := slotPickActive_of_newest room (slotNewest_iff.mpr newest)
    (slotUsable_iff.mp newest.usable) readable
  rw [slotPayload, length_regionPayload newest.usable.valid.sane] at answer front
  exact ⟨answer, front⟩

theorem slotPickActive_unread {faults : SlotReadFaults} {storage : Storage} {buf : List UInt8}
    {winner : SlotId} (room : slotPayloadMaxBytes ≤ buf.length)
    (newest : SlotNewest faults storage winner) (broken : faults.winner = true) :
    (slotPickActive faults storage buf).1 = .error .errStorage := by
  rw [slotPickActive, if_neg (Nat.not_lt.mpr room)]
  simp only [slotScanWinner_eq faults storage room, slotNewest_iff.mpr newest, Option.map_some,
    slotReadPayload_eq _ _ _ newest.usable.valid.sane, broken, if_true]

theorem slotScanWinner_none {faults : SlotReadFaults} {storage : Storage} {buf : List UInt8}
    (room : slotPayloadMaxBytes ≤ buf.length) (absent : ∀ id, ¬SlotUsable faults storage id) :
    slotScanWinner (slotScan faults storage buf) = none := by
  cases won : slotScanWinner (slotScan faults storage buf) with
  | none => rfl
  | some best =>
      have newest := (slotScanWinner_sane room won).2.2
      exact absurd (slotNewest_iff.mp newest).usable (absent best.1)

theorem slotPickActiveReads_none {faults : SlotReadFaults} {storage : Storage} {buf : List UInt8}
    (room : slotPayloadMaxBytes ≤ buf.length) (absent : ∀ id, ¬SlotUsable faults storage id) :
    slotPickActiveReads faults storage buf = ((slotScanProgram faults buf).run storage).trace := by
  have scanned := observes_slotScan faults storage buf
  rw [slotPickActiveReads, slotPickActiveProgram, if_neg (Nat.not_lt.mpr room), Traced.run_bind,
    scanned.value_eq, scanned.state_eq, slotScanWinner_none room absent, Traced.run_pure,
    List.append_nil]

theorem slotPickActive_none {faults : SlotReadFaults} {storage : Storage} {buf : List UInt8}
    (room : slotPayloadMaxBytes ≤ buf.length) (absent : ∀ id, ¬SlotUsable faults storage id) :
    (slotPickActive faults storage buf).1 =
      .error (if anyFailed (slotPickActiveReads faults storage buf) then .errStorage
        else .errNoValid) := by
  rw [slotPickActiveReads_none room absent, anyFailed_slotScan, slotPickActive,
    if_neg (Nat.not_lt.mpr room)]
  dsimp only
  rw [slotScanWinner_none room absent]

/-! The reads a scan attempts: each header, and the payload behind a sane header. -/

theorem slotScanStep_storageError (faults : SlotReadFaults) (storage : Storage) {scan : SlotScan}
    (room : slotPayloadMaxBytes ≤ scan.buf.length) (id : SlotId) :
    (slotScanStep faults storage scan id).storageError =
      (scan.storageError || (faults.header id ||
        (slotHeaderLooksSane (slotHeader storage id) && faults.payload id))) := by
  rw [slotScanStep, slotReadHeader_eq]
  cases faults.header id with
  | true => simp
  | false =>
      simp only [Bool.false_eq_true, if_false, slotValidateFull, Bool.false_or]
      cases sane : slotHeaderLooksSane (slotHeader storage id) with
      | false => simp
      | true =>
          have fits := ((slotHeaderLooksSane_iff _).mp sane).2.2.2
          rw [if_neg (by simp), if_neg (by omega), slotReadPayload_eq _ _ _ sane]
          cases faults.payload id <;> simp

theorem slotScan_storageError (faults : SlotReadFaults) (storage : Storage) {buf : List UInt8}
    (room : slotPayloadMaxBytes ≤ buf.length)
    (calm : (slotScan faults storage buf).storageError = false) (id : SlotId) :
    faults.header id = false ∧
      (slotHeaderLooksSane (slotHeader storage id) = true → faults.payload id = false) := by
  have size := (@slotScanStep_eq faults storage ⟨fun _ => none, false, buf⟩ room .a rfl).2
  rw [slotScan, List.foldl_cons, List.foldl_cons, List.foldl_nil,
    slotScanStep_storageError faults storage (size.symm ▸ room),
    slotScanStep_storageError faults storage room] at calm
  cases id <;> simp_all

theorem anyFailed_iff {reads : List StorageAccess} :
    anyFailed reads = true ↔ ∃ access ∈ reads, access.failed = true := List.any_eq_true

theorem anyFailed_eq_false_iff {reads : List StorageAccess} :
    anyFailed reads = false ↔ ∀ access ∈ reads, access.failed = false := by
  simp [anyFailed]

/-- A call none of whose reads failed and that found no usable slot met no valid one. -/
theorem not_slotValid_of_calm {faults : SlotReadFaults} {storage : Storage} {buf : List UInt8}
    (room : slotPayloadMaxBytes ≤ buf.length) (absent : ∀ id, ¬SlotUsable faults storage id)
    (calm : anyFailed (slotPickActiveReads faults storage buf) = false) (id : SlotId) :
    ¬SlotValid storage id := by
  intro valid
  rw [slotPickActiveReads_none room absent, anyFailed_slotScan] at calm
  obtain ⟨header, payload⟩ := slotScan_storageError faults storage room calm id
  exact absent id ⟨header, payload valid.sane, valid⟩

/-- `slot_pick_active` on any image and under any pattern of read failures: the
newest slot whose reads succeed and whose checks hold, with its payload; a storage
error when the second read fails or a failed read may have hidden a slot; no valid
slot only when nothing failed. It reads, and within the slot it looks at. -/
theorem slotPickActive_exact (faults : SlotReadFaults) (storage : Storage) {buf : List UInt8}
    (room : slotPayloadMaxBytes ≤ buf.length) :
    ((∃ id, SlotUsable faults storage id) → faults.winner = false →
      ∃ id, SlotNewest faults storage id ∧
        (slotPickActive faults storage buf).1 = .ok (id, (slotPayload storage id).length) ∧
        (slotPickActive faults storage buf).2.take (slotPayload storage id).length =
          slotPayload storage id) ∧
    ((slotPickActive faults storage buf).1 = .error .errStorage ↔
      ((∃ id, SlotUsable faults storage id) ∧ faults.winner = true) ∨
        ((∀ id, ¬SlotUsable faults storage id) ∧
          ∃ access ∈ slotPickActiveReads faults storage buf, access.failed = true)) ∧
    ((slotPickActive faults storage buf).1 = .error .errNoValid ↔
      (∀ access ∈ slotPickActiveReads faults storage buf, access.failed = false) ∧
        ∀ id, ¬SlotValid storage id) ∧
    ((slotPickActiveProgram faults buf).run storage).value = slotPickActive faults storage buf ∧
    ((slotPickActiveProgram faults buf).run storage).state = storage ∧
    ∀ access ∈ slotPickActiveReads faults storage buf, access.InSlot := by
  obtain ⟨returned, kept, within⟩ := observes_slotPickActive faults storage buf
  refine ⟨?_, ?_, ?_, returned, kept, within⟩
  · rintro ⟨id, usable⟩ readable
    obtain ⟨winner, newest⟩ := exists_slotNewest usable
    obtain ⟨answer, front⟩ := slotPickActive_of_winner room newest readable
    rw [← length_slotPayload newest.usable.valid] at answer front
    exact ⟨winner, newest, answer, front⟩
  · rcases slotUsable_cases faults storage with ⟨winner, newest⟩ | absent
    · have found : ∃ id, SlotUsable faults storage id := ⟨winner, newest.usable⟩
      have stuck : ¬∀ id, ¬SlotUsable faults storage id := not_forall_not.mpr found
      cases reread : faults.winner with
      | false => simp [(slotPickActive_of_winner room newest reread).1, stuck]
      | true => simp [slotPickActive_unread room newest reread, found]
    · rw [slotPickActive_none room absent, ← anyFailed_iff]
      cases anyFailed (slotPickActiveReads faults storage buf) <;> simp [absent]
  · rcases slotUsable_cases faults storage with ⟨winner, newest⟩ | absent
    · have valid : ¬∀ id, ¬SlotValid storage id :=
        not_forall_not.mpr ⟨winner, newest.usable.valid⟩
      cases reread : faults.winner with
      | false => simp [(slotPickActive_of_winner room newest reread).1, valid]
      | true => simp [slotPickActive_unread room newest reread, valid]
    · rw [slotPickActive_none room absent, ← anyFailed_eq_false_iff]
      have invalid := not_slotValid_of_calm room absent
      cases calm : anyFailed (slotPickActiveReads faults storage buf) with
      | false => simp [invalid calm]
      | true => simp

def deadMedium : SlotReadFaults := ⟨fun _ => true, fun _ => true, true⟩

/-- The payload of slot B does not answer. -/
def silentPayload : SlotReadFaults := ⟨fun _ => false, (· == .b), false⟩

theorem bothSlotsImage_valid (id : SlotId) : SlotValid bothSlotsImage id := by
  cases id <;> exact ⟨by decide +kernel, by decide +kernel⟩

/-- Of two valid slots the older one is read when the payload of the newer one does not
answer, and a medium that answers no read is not taken for a blank one. -/
theorem slotPickActive_silent :
    ((∀ id, SlotValid bothSlotsImage id) ∧
      (slotHeader bothSlotsImage .a).seq < (slotHeader bothSlotsImage .b).seq) ∧
    ((slotPickActive silentPayload bothSlotsImage (List.replicate 2028 0)).1 = .ok (.a, 1) ∧
      (slotPickActive silentPayload bothSlotsImage (List.replicate 2028 0)).2.take 1 = [0x11]) ∧
    (slotPickActive deadMedium storageInit (List.replicate 2028 0)).1 = .error .errStorage := by
  have room : slotPayloadMaxBytes ≤ (List.replicate 2028 (0 : UInt8)).length :=
    List.length_replicate.ge
  refine ⟨⟨bothSlotsImage_valid, by decide +kernel⟩, ?_, ?_⟩
  · obtain ⟨newest, -⟩ := slotPickActive_exact silentPayload bothSlotsImage room
    obtain ⟨id, ⟨usable, -, -⟩, answer, front⟩ :=
      newest ⟨.a, rfl, rfl, bothSlotsImage_valid .a⟩ rfl
    cases id with
    | a =>
        have content : slotPayload bothSlotsImage .a = [0x11] := by decide +kernel
        rw [content] at answer front
        exact ⟨answer, front⟩
    | b => cases usable.payload
  · obtain ⟨-, storageError, -⟩ := slotPickActive_exact deadMedium storageInit room
    refine storageError.mpr (.inr ⟨?_, ⟨.a, 0, 20, true⟩, by decide +kernel, rfl⟩)
    rintro id ⟨readable, -, -⟩
    cases readable

end ConfigWp
