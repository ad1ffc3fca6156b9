import ConfigWp.Application.Slot
import ConfigWp.Library.Machine

/-! The slot protocol as a double buffer. Each slot is a function of its own
2048 bytes, the reader and the writer of `config_slot.c` are the reader and the
writer of the double buffer over the two slots, and a write touches the bytes of
one slot only. -/

set_option autoImplicit false

namespace ConfigWp

open LittleEndian
open DoubleBuffer (Copy Pair)

instance uint32LinearOrder : LinearOrder UInt32 where
  le_refl := UInt32.le_refl
  le_trans _ _ _ := UInt32.le_trans
  le_antisymm _ _ := UInt32.le_antisymm
  le_total := UInt32.le_total
  lt_iff_le_not_ge left right := by
    simp only [UInt32.le_iff_toNat_le, UInt32.lt_iff_toNat_lt]
    omega
  toDecidableLE := inferInstance

def slotRegion (storage : Storage) (id : SlotId) : List UInt8 :=
  Splice.window storage.bytes (slotOffset id) slotTotalBytes

def slotHeader (storage : Storage) (id : SlotId) : SlotHeader :=
  SlotHeader.ofBytes ((slotRegion storage id).take slotHeaderBytes)

def regionPayload (region : List UInt8) (hdr : SlotHeader) : List UInt8 :=
  Splice.window region slotHeaderBytes hdr.length.toNat

/-- A slot as the two paths judge it: the header alone gives the stamp, the CRC
decides whether the payload is content. A failed read hides what it would have
shown. -/
def slotCopyOf (headerFails payloadFails : Bool) (region : List UInt8) : Copy UInt32 (List UInt8) :=
  let hdr := SlotHeader.ofBytes (region.take slotHeaderBytes)
  if headerFails || !slotHeaderLooksSane hdr then .blank
  else if payloadFails || slotCrc hdr (regionPayload region hdr) != hdr.crc32 then .stale hdr.seq
  else .valid hdr.seq (regionPayload region hdr)

def slotCopies (faults : SlotReadFaults) (storage : Storage) : Pair UInt32 (List UInt8) :=
  fun id => slotCopyOf (faults.header id) (faults.payload id) (slotRegion storage id)

abbrev slotPair (storage : Storage) : Pair UInt32 (List UInt8) := slotCopies .none storage

theorem slotOffset_room (id : SlotId) : slotOffset id + slotTotalBytes ≤ storageBytes := by
  cases id <;> decide

theorem slotOffset_apart (id : SlotId) :
    slotOffset id + slotTotalBytes ≤ slotOffset id.other ∨
      slotOffset id.other + slotTotalBytes ≤ slotOffset id := by
  cases id <;> decide

theorem length_slotRegion (storage : Storage) (id : SlotId) :
    (slotRegion storage id).length = slotTotalBytes :=
  Splice.length_window (by rw [storage.size_eq]; exact slotOffset_room id)

theorem slotHeaderLooksSane_iff (hdr : SlotHeader) :
    slotHeaderLooksSane hdr = true ↔
      hdr.magic = slotMagic ∧ hdr.formatVer = slotFormatVer ∧ hdr.flags = 0 ∧
        hdr.length.toNat ≤ slotPayloadMaxBytes := by
  simp only [slotHeaderLooksSane, gt_iff_lt]
  split_ifs <;> simp_all

/-! The reads of one slot. -/

theorem slotReadHeader_eq (fails : Bool) (storage : Storage) (id : SlotId) :
    slotReadHeader fails storage id = if fails then none else some (slotHeader storage id) := by
  have inside : slotOffset id + slotHeaderBytes ≤ storageBytes := by cases id <;> decide
  have shown : Splice.window storage.bytes (slotOffset id) slotHeaderBytes =
      (slotRegion storage id).take slotHeaderBytes := by
    rw [← Splice.window_zero, slotRegion, Splice.window_window (by decide), Nat.add_zero]
  rw [slotReadHeader, storageReadFaulty_of_le inside]
  cases fails <;> simp [slotHeader, shown]

theorem slotReadPayload_eq (fails : Bool) (storage : Storage) (id : SlotId) {hdr : SlotHeader}
    (sane : slotHeaderLooksSane hdr = true) :
    storageReadFaulty fails storage (slotPayloadOffset id) hdr.length.toNat =
      if fails then .error .errIo else .ok (regionPayload (slotRegion storage id) hdr) := by
  obtain ⟨-, -, -, fits⟩ := (slotHeaderLooksSane_iff hdr).mp sane
  have room := slotOffset_room id
  have inside : slotPayloadOffset id + hdr.length.toNat ≤ storageBytes := by
    simp only [slotPayloadOffset, slotTotalBytes] at room ⊢
    omega
  rw [storageReadFaulty_of_le inside, regionPayload, slotRegion,
    Splice.window_window (by simp only [slotTotalBytes]; omega), slotPayloadOffset]

theorem length_regionPayload {storage : Storage} {id : SlotId} {hdr : SlotHeader}
    (sane : slotHeaderLooksSane hdr = true) :
    (regionPayload (slotRegion storage id) hdr).length = hdr.length.toNat := by
  obtain ⟨-, -, -, fits⟩ := (slotHeaderLooksSane_iff hdr).mp sane
  apply Splice.length_window
  rw [length_slotRegion, slotTotalBytes]
  omega

theorem slotCopies_eq (faults : SlotReadFaults) (storage : Storage) (id : SlotId) :
    slotCopies faults storage id =
      if faults.header id || !slotHeaderLooksSane (slotHeader storage id) then .blank
      else if faults.payload id ||
          slotCrc (slotHeader storage id)
            (regionPayload (slotRegion storage id) (slotHeader storage id)) !=
              (slotHeader storage id).crc32 then
        .stale (slotHeader storage id).seq
      else
        .valid (slotHeader storage id).seq
          (regionPayload (slotRegion storage id) (slotHeader storage id)) := rfl

theorem slotCopies_eq_valid_iff {faults : SlotReadFaults} {storage : Storage} {id : SlotId}
    {seq : UInt32} {payload : List UInt8} :
    slotCopies faults storage id = .valid seq payload ↔
      (faults.header id = false ∧ slotHeaderLooksSane (slotHeader storage id) = true) ∧
        (faults.payload id = false ∧ slotCrc (slotHeader storage id) payload =
          (slotHeader storage id).crc32) ∧
        (slotHeader storage id).seq = seq ∧
        regionPayload (slotRegion storage id) (slotHeader storage id) = payload := by
  rw [slotCopies_eq]
  constructor
  · intro valid
    split_ifs at valid with hidden broken
    obtain ⟨rfl, rfl⟩ := Copy.valid.inj valid
    simp only [Bool.or_eq_true, not_or, Bool.not_eq_true, Bool.not_eq_eq_eq_not, Bool.not_true,
      bne_iff_ne, ne_eq, Decidable.not_not] at hidden broken
    exact ⟨by simpa using hidden, broken, rfl, rfl⟩
  · rintro ⟨⟨readable, sane⟩, ⟨intact, matching⟩, rfl, rfl⟩
    simp [readable, sane, intact, matching]

theorem slotCopies_stamp {faults : SlotReadFaults} {storage : Storage} {id : SlotId} :
    (slotCopies faults storage id).stamp? =
      if faults.header id || !slotHeaderLooksSane (slotHeader storage id) then none
      else some (slotHeader storage id).seq := by
  rw [slotCopies_eq]
  split_ifs <;> rfl

theorem slotPair_erased (id : SlotId) : (slotPair storageInit id).stamp? = none := by
  cases id <;> decide +kernel

theorem slotCopies_eq_blank {faults : SlotReadFaults} {storage : Storage} {id : SlotId}
    (unstamped : (slotCopies faults storage id).stamp? = none) :
    slotCopies faults storage id = .blank := by
  cases copy : slotCopies faults storage id <;> simp_all

theorem slotCopies_congr {faults : SlotReadFaults} {left right : Storage} {id : SlotId}
    (same : slotRegion left id = slotRegion right id) :
    slotCopies faults left id = slotCopies faults right id := by
  simp only [slotCopies, same]

/-! The reader. -/

theorem slotValidateFull_eq (faults : SlotReadFaults) (storage : Storage) (id : SlotId)
    {buf : List UInt8} (room : slotPayloadMaxBytes ≤ buf.length)
    (readable : faults.header id = false) :
    (slotValidateFull (faults.payload id) storage id (slotHeader storage id) buf).valid =
        (slotCopies faults storage id).content?.isSome ∧
      (slotValidateFull (faults.payload id) storage id (slotHeader storage id) buf).buf.length =
        buf.length := by
  cases sane : slotHeaderLooksSane (slotHeader storage id) with
  | false => simp [slotValidateFull, slotCopies_eq, sane]
  | true =>
      have fits := ((slotHeaderLooksSane_iff _).mp sane).2.2.2
      simp only [slotValidateFull, sane, Bool.not_true, Bool.false_eq_true, if_false,
        if_neg (show ¬(slotHeader storage id).length.toNat > buf.length by omega),
        slotReadPayload_eq _ _ _ sane]
      cases broken : faults.payload id with
      | true => simp [slotCopies_eq, sane, readable, broken]
      | false =>
          simp only [Bool.false_eq_true, if_false]
          refine ⟨?_, Splice.length_overwrite ?_⟩
          · simp only [slotCopies_eq, sane, readable, broken]
            by_cases matching : slotCrc (slotHeader storage id)
                (regionPayload (slotRegion storage id) (slotHeader storage id)) =
                  (slotHeader storage id).crc32 <;> simp [matching]
          · rw [length_regionPayload sane]
            omega

def slotKept (faults : SlotReadFaults) (storage : Storage) (id : SlotId) : Option SlotHeader :=
  (slotCopies faults storage id).content?.map fun _ => slotHeader storage id

theorem slotScanStep_eq (faults : SlotReadFaults) (storage : Storage) {scan : SlotScan}
    (room : slotPayloadMaxBytes ≤ scan.buf.length) (id : SlotId) (fresh : scan.valid id = none) :
    (slotScanStep faults storage scan id).valid =
        Function.update scan.valid id (slotKept faults storage id) ∧
      (slotScanStep faults storage scan id).buf.length = scan.buf.length := by
  simp only [slotScanStep, slotReadHeader_eq]
  cases readable : faults.header id with
  | true =>
      have hidden : slotKept faults storage id = none := by
        simp [slotKept, slotCopies_eq, readable]
      simp only [if_true, hidden, and_true]
      rw [← fresh, Function.update_eq_self]
  | false =>
      obtain ⟨verdict, size⟩ := slotValidateFull_eq faults storage id room readable
      simp only [Bool.false_eq_true, if_false, size, and_true, verdict, slotKept]
      cases (slotCopies faults storage id).content? <;> simp

theorem slotScan_eq (faults : SlotReadFaults) (storage : Storage) {buf : List UInt8}
    (room : slotPayloadMaxBytes ≤ buf.length) :
    (slotScan faults storage buf).valid = slotKept faults storage ∧
      (slotScan faults storage buf).buf.length = buf.length := by
  simp only [slotScan, List.foldl_cons, List.foldl_nil]
  obtain ⟨first, firstSize⟩ :=
    @slotScanStep_eq faults storage ⟨fun _ => none, false, buf⟩ room .a rfl
  obtain ⟨second, secondSize⟩ :=
    @slotScanStep_eq faults storage (slotScanStep faults storage ⟨fun _ => none, false, buf⟩ .a)
      (firstSize.symm ▸ room) .b (by rw [first]; rfl)
  refine ⟨?_, secondSize.trans firstSize⟩
  rw [second, first]
  funext id
  cases id <;> rfl

theorem slotScanWinner_eq (faults : SlotReadFaults) (storage : Storage) {buf : List UInt8}
    (room : slotPayloadMaxBytes ≤ buf.length) :
    slotScanWinner (slotScan faults storage buf) =
      (DoubleBuffer.newest (slotCopies faults storage)).map fun id =>
        (id, slotHeader storage id) := by
  have seqOf : ∀ {id seq payload}, slotCopies faults storage id = .valid seq payload →
      (slotHeader storage id).seq = seq := fun copy => (slotCopies_eq_valid_iff.mp copy).2.2.1
  simp only [slotScanWinner, (slotScan_eq faults storage room).1, slotKept, DoubleBuffer.newest]
  cases left : slotCopies faults storage .a <;> cases right : slotCopies faults storage .b <;>
    simp only [Copy.content?_blank, Copy.content?_stale, Copy.content?_valid, Option.map_none,
      Option.map_some]
  case valid.valid earlier held later other =>
    rw [seqOf left, seqOf right]
    split_ifs <;> rfl

/-- `slot_pick_active` is the reader of the double buffer: it names the newest
valid slot and leaves that slot's payload at the front of the buffer. -/
theorem slotPickActive_of_newest {faults : SlotReadFaults} {storage : Storage} {buf : List UInt8}
    {id : SlotId} {seq : UInt32} {payload : List UInt8} (room : slotPayloadMaxBytes ≤ buf.length)
    (chosen : DoubleBuffer.newest (slotCopies faults storage) = some id)
    (copy : slotCopies faults storage id = .valid seq payload) (readable : faults.winner = false) :
    (slotPickActive faults storage buf).1 = .ok (id, payload.length) ∧
      (slotPickActive faults storage buf).2.take payload.length = payload ∧
      (slotPickActive faults storage buf).2.length = buf.length := by
  obtain ⟨⟨-, sane⟩, -, -, held⟩ := slotCopies_eq_valid_iff.mp copy
  have size := @length_regionPayload storage id _ sane
  have fits := ((slotHeaderLooksSane_iff _).mp sane).2.2.2
  rw [held] at size
  have kept := (slotScan_eq faults storage room).2
  simp only [slotPickActive, if_neg (Nat.not_lt.mpr room), slotScanWinner_eq faults storage room,
    chosen, Option.map_some, slotReadPayload_eq _ _ _ sane, readable, Bool.false_eq_true, if_false,
    held, size, true_and]
  rw [Splice.overwrite_zero]
  constructor
  · rw [← size, List.take_left]
  · rw [List.length_append, List.length_drop, kept]
    omega

theorem slotPickActive_of_none {faults : SlotReadFaults} {storage : Storage} {buf : List UInt8}
    (room : slotPayloadMaxBytes ≤ buf.length)
    (absent : DoubleBuffer.newest (slotCopies faults storage) = none) :
    ∃ status, (slotPickActive faults storage buf).1 = .error status := by
  simp only [slotPickActive, if_neg (Nat.not_lt.mpr room), slotScanWinner_eq faults storage room,
    absent, Option.map_none]
  exact ⟨_, rfl⟩

theorem slotPickActive_ok {faults : SlotReadFaults} {storage : Storage} {buf : List UInt8}
    {id : SlotId} {len : Nat} (room : slotPayloadMaxBytes ≤ buf.length)
    (picked : (slotPickActive faults storage buf).1 = .ok (id, len)) :
    ∃ seq payload, DoubleBuffer.newest (slotCopies faults storage) = some id ∧
      slotCopies faults storage id = .valid seq payload ∧ payload.length = len ∧
      (slotPickActive faults storage buf).2.take len = payload := by
  cases chosen : DoubleBuffer.newest (slotCopies faults storage) with
  | none =>
      obtain ⟨status, failed⟩ := slotPickActive_of_none room chosen
      simp [failed] at picked
  | some winner =>
      obtain ⟨seq, payload, copy⟩ := DoubleBuffer.newest_valid chosen
      cases readable : faults.winner with
      | true =>
          obtain ⟨⟨-, sane⟩, -⟩ := slotCopies_eq_valid_iff.mp copy
          simp [slotPickActive, if_neg (Nat.not_lt.mpr room), slotScanWinner_eq faults storage room,
            chosen, slotReadPayload_eq _ _ _ sane, readable] at picked
      | false =>
          obtain ⟨answer, front, -⟩ := slotPickActive_of_newest room chosen copy readable
          rw [answer] at picked
          obtain ⟨rfl, rfl⟩ := Prod.mk.inj (Except.ok.inj picked)
          exact ⟨seq, payload, rfl, copy, rfl, front⟩

def readPayload (faults : SlotReadFaults) (storage : Storage) : Option (List UInt8) :=
  if faults.winner then none else DoubleBuffer.read (slotCopies faults storage)

theorem readPayload_none (storage : Storage) :
    readPayload .none storage = DoubleBuffer.read (slotPair storage) := rfl

theorem slotPickActive_some {faults : SlotReadFaults} {storage : Storage} {buf payload : List UInt8}
    (room : slotPayloadMaxBytes ≤ buf.length) (found : readPayload faults storage = some payload) :
    ∃ id, (slotPickActive faults storage buf).1 = .ok (id, payload.length) ∧
      (slotPickActive faults storage buf).2.take payload.length = payload := by
  rw [readPayload] at found
  split_ifs at found with broken
  obtain ⟨id, seq, chosen, copy⟩ := DoubleBuffer.newest_of_read found
  obtain ⟨answer, front, -⟩ :=
    slotPickActive_of_newest room chosen copy (Bool.eq_false_iff.mpr broken)
  exact ⟨id, answer, front⟩

theorem slotPickActive_error {faults : SlotReadFaults} {storage : Storage} {buf : List UInt8}
    (room : slotPayloadMaxBytes ≤ buf.length) (absent : readPayload faults storage = none) :
    ∃ status, (slotPickActive faults storage buf).1 = .error status := by
  cases picked : (slotPickActive faults storage buf).1 with
  | error status => exact ⟨status, rfl⟩
  | ok answer =>
      obtain ⟨seq, payload, chosen, copy, -⟩ := slotPickActive_ok room picked
      have read := DoubleBuffer.read_of_newest chosen copy
      obtain ⟨⟨-, sane⟩, -⟩ := slotCopies_eq_valid_iff.mp copy
      rw [readPayload, read] at absent
      split_ifs at absent with broken
      simp [slotPickActive, if_neg (Nat.not_lt.mpr room), slotScanWinner_eq faults storage room,
        chosen, slotReadPayload_eq _ _ _ sane, broken] at picked

theorem slotPickActive_length (faults : SlotReadFaults) (storage : Storage) (buf : List UInt8) :
    (slotPickActive faults storage buf).2.length = buf.length := by
  by_cases small : buf.length < slotPayloadMaxBytes
  · rw [slotPickActive, if_pos small]
  have room := Nat.not_lt.mp small
  have kept := (slotScan_eq faults storage room).2
  cases chosen : DoubleBuffer.newest (slotCopies faults storage) with
  | none =>
      simp only [slotPickActive, if_neg small, slotScanWinner_eq faults storage room, chosen,
        Option.map_none, kept]
  | some id =>
      obtain ⟨seq, payload, copy⟩ := DoubleBuffer.newest_valid chosen
      cases readable : faults.winner with
      | false => exact (slotPickActive_of_newest room chosen copy readable).2.2
      | true =>
          obtain ⟨⟨-, sane⟩, -⟩ := slotCopies_eq_valid_iff.mp copy
          simp only [slotPickActive, if_neg small, slotScanWinner_eq faults storage room, chosen,
            Option.map_some, slotReadPayload_eq _ _ _ sane, readable, if_true, kept]

theorem slotPickActive_noValid {storage : Storage} {buf : List UInt8}
    (room : slotPayloadMaxBytes ≤ buf.length)
    (absent : DoubleBuffer.newest (slotPair storage) = none) :
    (slotPickActive .none storage buf).1 = .error .errNoValid := by
  have quiet : ∀ id hdr scratch,
      (slotValidateFull false storage id hdr scratch).storageError = false := by
    intro id hdr scratch
    simp only [slotValidateFull]
    split_ifs with insane large
    · rfl
    · rfl
    · rw [slotReadPayload_eq _ _ _ (by simpa using insane)]
      rfl
  have calm : (slotScan .none storage buf).storageError = false := by
    simp [slotScan, slotScanStep, slotReadHeader_eq, SlotReadFaults.none, quiet]
  simp [slotPickActive, if_neg (Nat.not_lt.mpr room), slotScanWinner_eq .none storage room, absent,
    calm]

/-! The writer. -/

theorem slotWriteSeq_eq (fails : Bool) (storage : Storage) (id : SlotId) :
    slotWriteSeq fails storage id =
      if fails || !slotHeaderLooksSane (slotHeader storage id) then none
      else some (slotHeader storage id).seq := by
  rw [slotWriteSeq, slotReadHeader_eq]
  cases fails <;> cases sane : slotHeaderLooksSane (slotHeader storage id) <;> simp [sane]

/-- The target selection of `slot_write` is the one of the double buffer. It
looks at stamps, so it is the same whatever payload reads would fail. -/
theorem slotWriteTarget_eq (faults : SlotReadFaults) (storage : Storage) :
    slotWriteTarget faults.header storage =
      DoubleBuffer.target (· + 1) 1 (slotCopies faults storage) := by
  have seen : ∀ id, slotWriteSeq (faults.header id) storage id =
      (slotCopies faults storage id).stamp? := by
    intro id
    rw [slotCopies_stamp, slotWriteSeq_eq]
  simp only [slotWriteTarget, DoubleBuffer.target, seen]
  cases (slotCopies faults storage .a).stamp? <;> cases (slotCopies faults storage .b).stamp? <;>
    rfl

theorem SlotHeader.ofBytes_toBytes (hdr : SlotHeader) (rest : List UInt8) :
    SlotHeader.ofBytes (hdr.toBytes ++ rest) = hdr := by
  have words : hdr.toBytes ++ rest = write32 hdr.magic ++ (write16 hdr.formatVer ++
      (write16 hdr.flags ++ (write32 hdr.seq ++ (write32 hdr.length ++
        (write32 hdr.crc32 ++ rest))))) := by
    simp only [toBytes, covered, List.append_assoc]
  rw [words]
  simp only [ofBytes, drop_write32 _ _ 0, drop_write32 _ _ 2, drop_write32 _ _ 4,
    drop_write32 _ _ 8, drop_write32 _ _ 12, drop_write16 _ _ 0, drop_write16 _ _ 2,
    drop_write16 _ _ 6, drop_write16 _ _ 10, drop_write16 _ _ 4, drop_write16 _ _ 8,
    List.drop_zero, read32_write32, read16_write16]

theorem SlotHeader.length_toBytes (hdr : SlotHeader) : hdr.toBytes.length = slotHeaderBytes := by
  simp [toBytes, covered, slotHeaderBytes]

/-- A write inside one slot is a write into its region and leaves the other
region alone. -/
theorem slotRegion_write {outcome : WriteOutcome} {storage : Storage} {id : SlotId} {first : Nat}
    {data : List UInt8} (fits : first + data.length ≤ slotTotalBytes) :
    ∃ written, storageWriteFaulty outcome storage (slotOffset id + first) data =
        (if outcome = .complete then .ok () else .error .errIo, written) ∧
      slotRegion written id =
        Splice.overwrite (slotRegion storage id) first (outcome.reached data) ∧
      slotRegion written id.other = slotRegion storage id.other := by
  have room := slotOffset_room id
  have apart := slotOffset_apart id
  have shorter := outcome.length_reached_le data
  obtain ⟨written, stopped, shape⟩ :=
    @storageWriteFaulty_of_le outcome storage (slotOffset id + first) data (by omega)
  refine ⟨written, stopped, ?_, ?_⟩
  · rw [slotRegion, shape, Splice.window_overwrite_inside (by rw [storage.size_eq]; exact room)
      (by omega), slotRegion]
  · rw [slotRegion, shape, Splice.window_overwrite_disjoint (by rw [storage.size_eq]; omega)
      (by omega), slotRegion]

structure SlotPayload where
  bytes : List UInt8
  nonempty : 0 < bytes.length
  fits : bytes.length ≤ slotPayloadMaxBytes

theorem slotNewHeader_sane (seq : UInt32) (payload : SlotPayload) :
    slotHeaderLooksSane (slotNewHeader seq payload.bytes) = true ∧
      (slotNewHeader seq payload.bytes).length.toNat = payload.bytes.length := by
  have fits := payload.fits
  simp only [slotPayloadMaxBytes] at fits
  have length : (slotNewHeader seq payload.bytes).length.toNat = payload.bytes.length := by
    simp only [slotNewHeader, UInt32.toNat_ofNat']
    omega
  exact ⟨(slotHeaderLooksSane_iff _).mpr ⟨rfl, rfl, rfl, length ▸ payload.fits⟩, length⟩

theorem slotNewHeader_crc (seq : UInt32) (payload : List UInt8) :
    slotCrc (slotNewHeader seq payload) payload = (slotNewHeader seq payload).crc32 := rfl

theorem slotCopyOf_committed (seq : UInt32) (payload : SlotPayload) (rest : List UInt8) :
    slotCopyOf false false
        ((slotNewHeader seq payload.bytes).toBytes ++ (payload.bytes ++ rest)) =
      .valid seq payload.bytes := by
  obtain ⟨sane, length⟩ := slotNewHeader_sane seq payload
  have size := (slotNewHeader seq payload.bytes).length_toBytes
  have header : SlotHeader.ofBytes (((slotNewHeader seq payload.bytes).toBytes ++
      (payload.bytes ++ rest)).take slotHeaderBytes) = slotNewHeader seq payload.bytes := by
    rw [← size, List.take_left]
    simpa using SlotHeader.ofBytes_toBytes (slotNewHeader seq payload.bytes) []
  have content : regionPayload ((slotNewHeader seq payload.bytes).toBytes ++
      (payload.bytes ++ rest)) (slotNewHeader seq payload.bytes) = payload.bytes := by
    rw [regionPayload, Splice.window, length, ← size, List.drop_left, List.take_left]
  simp only [slotCopyOf, header, content, sane, slotNewHeader_crc]
  simp [slotNewHeader]

/-! The effect of a write on both slots. -/

theorem slotWriteTarget_eq_pair (storage : Storage) :
    slotWriteTarget (fun _ => false) storage =
      DoubleBuffer.target (· + 1) 1 (slotPair storage) :=
  slotWriteTarget_eq .none storage

private theorem slotPair_update {storage written : Storage} {target : SlotId}
    {copy : Copy UInt32 (List UInt8)}
    (replaced : slotCopyOf false false (slotRegion written target) = copy)
    (spared : slotRegion written target.other = slotRegion storage target.other) :
    slotPair written = Function.update (slotPair storage) target copy := by
  funext id
  rcases DoubleBuffer.Side.eq_or_eq_other id target with rfl | rfl
  · rw [Function.update_self]
    exact replaced
  · rw [Function.update_of_ne (DoubleBuffer.Side.other_ne target)]
    exact slotCopies_congr spared

theorem slotWrite_effect (faults : SlotWriteFaults) (storage : Storage) (payload : SlotPayload) :
    ∃ staged written,
      slotRegion staged (slotWriteTarget faults.header storage).1 =
          Splice.overwrite (slotRegion storage (slotWriteTarget faults.header storage).1)
            slotHeaderBytes (faults.payloadWrite.reached payload.bytes) ∧
        slotRegion staged (slotWriteTarget faults.header storage).1.other =
          slotRegion storage (slotWriteTarget faults.header storage).1.other ∧
        slotRegion written (slotWriteTarget faults.header storage).1 =
          Splice.overwrite (slotRegion staged (slotWriteTarget faults.header storage).1) 0
            (faults.headerWrite.reached
              (slotNewHeader (slotWriteTarget faults.header storage).2 payload.bytes).toBytes) ∧
        slotRegion written (slotWriteTarget faults.header storage).1.other =
          slotRegion storage (slotWriteTarget faults.header storage).1.other ∧
        slotWrite faults storage payload.bytes =
          if faults.payloadWrite = .complete then
            (if faults.headerWrite = .complete then .ok () else .error .errStorage, written)
          else (.error .errStorage, staged) := by
  have nonempty := payload.nonempty
  have fits := payload.fits
  obtain ⟨staged, stopped, filled, spared⟩ :=
    @slotRegion_write faults.payloadWrite storage (slotWriteTarget faults.header storage).1
      slotHeaderBytes payload.bytes (by simp only [slotTotalBytes]; omega)
  obtain ⟨written, answered, committed, kept⟩ :=
    @slotRegion_write faults.headerWrite staged (slotWriteTarget faults.header storage).1 0
      (slotNewHeader (slotWriteTarget faults.header storage).2 payload.bytes).toBytes
      (by rw [SlotHeader.length_toBytes]; decide)
  refine ⟨staged, written, filled, spared, committed, kept.trans spared, ?_⟩
  rw [Nat.add_zero] at answered
  simp only [slotWrite, if_neg (show ¬payload.bytes.length = 0 by omega),
    if_neg (show ¬payload.bytes.length > slotPayloadMaxBytes by omega), slotPayloadOffset, stopped]
  by_cases sent : faults.payloadWrite = .complete
  · by_cases framed : faults.headerWrite = .complete
    · simp only [if_pos sent, if_pos framed, answered]
    · simp only [if_pos sent, if_neg framed, answered]
  · simp only [if_neg sent]

/-- The slot `slot_write` does not target keeps every byte, however the call ends. -/
theorem slotWrite_spares (faults : SlotWriteFaults) (storage : Storage) (payload : SlotPayload) :
    slotRegion (slotWrite faults storage payload.bytes).2
        (slotWriteTarget faults.header storage).1.other =
      slotRegion storage (slotWriteTarget faults.header storage).1.other := by
  obtain ⟨staged, written, -, spared, -, kept, outcome⟩ := slotWrite_effect faults storage payload
  by_cases sent : faults.payloadWrite = .complete
  · rw [outcome, if_pos sent]
    exact kept
  · rw [outcome, if_neg sent]
    exact spared

theorem slotWrite_complete {faults : SlotWriteFaults} {storage : Storage} {payload : SlotPayload}
    (sent : faults.payloadWrite = .complete) (committed : faults.headerWrite = .complete) :
    (slotWrite faults storage payload.bytes).1 = .ok () ∧
      slotPair (slotWrite faults storage payload.bytes).2 =
        Function.update (slotPair storage) (slotWriteTarget faults.header storage).1
          (.valid (slotWriteTarget faults.header storage).2 payload.bytes) := by
  obtain ⟨staged, written, filled, -, framed, kept, outcome⟩ :=
    slotWrite_effect faults storage payload
  rw [outcome, if_pos sent, if_pos committed]
  refine ⟨rfl, slotPair_update ?_ kept⟩
  have size := SlotHeader.length_toBytes
    (slotNewHeader (slotWriteTarget faults.header storage).2 payload.bytes)
  have room := length_slotRegion storage (slotWriteTarget faults.header storage).1
  rw [framed, filled, sent, committed, WriteOutcome.reached, WriteOutcome.reached,
    Splice.overwrite_zero, size, Splice.overwrite, List.append_assoc,
    List.drop_left' (by rw [List.length_take, room]; decide)]
  exact slotCopyOf_committed _ _ _

/-- With every access succeeding, `slot_write` is the writer of the double buffer. -/
theorem slotWrite_commit (storage : Storage) (payload : SlotPayload) :
    (slotWrite .none storage payload.bytes).1 = .ok () ∧
      slotPair (slotWrite .none storage payload.bytes).2 =
        DoubleBuffer.commit (· + 1) 1 (slotPair storage) payload.bytes := by
  obtain ⟨succeeded, replaced⟩ := @slotWrite_complete .none storage payload rfl rfl
  refine ⟨succeeded, replaced.trans ?_⟩
  rw [DoubleBuffer.commit, ← slotWriteTarget_eq_pair]
  rfl

/-- A write that stops before its header write changes the payload bytes of the
target slot only, so the stamp of that slot stays. -/
theorem slotWrite_torn {faults : SlotWriteFaults} {storage : Storage} {payload : SlotPayload}
    (stopped : faults.payloadWrite ≠ .complete ∨ faults.headerWrite = .cut 0) :
    ∃ torn, torn.stamp? = (slotPair storage (slotWriteTarget faults.header storage).1).stamp? ∧
      slotPair (slotWrite faults storage payload.bytes).2 =
        Function.update (slotPair storage) (slotWriteTarget faults.header storage).1 torn := by
  obtain ⟨staged, written, filled, spared, framed, kept, outcome⟩ :=
    slotWrite_effect faults storage payload
  have fits := payload.fits
  have shorter := faults.payloadWrite.length_reached_le payload.bytes
  have room := length_slotRegion storage (slotWriteTarget faults.header storage).1
  have header : (slotRegion staged (slotWriteTarget faults.header storage).1).take slotHeaderBytes =
      (slotRegion storage (slotWriteTarget faults.header storage).1).take slotHeaderBytes := by
    rw [filled, Splice.overwrite, List.append_assoc,
      List.take_left' (by rw [List.length_take, room]; decide)]
  refine ⟨slotPair staged (slotWriteTarget faults.header storage).1, ?_, ?_⟩
  · rw [slotCopies_stamp, slotCopies_stamp, slotHeader, slotHeader, header]
  · by_cases sent : faults.payloadWrite = .complete
    · rw [outcome, if_pos sent]
      have untouched : faults.headerWrite = .cut 0 := stopped.resolve_left (not_not_intro sent)
      rw [untouched, WriteOutcome.reached, List.take_zero, Splice.overwrite_zero, List.nil_append,
        List.length_nil, List.drop_zero] at framed
      exact slotPair_update (by rw [framed]; rfl) kept
    · rw [outcome, if_neg sent]
      exact slotPair_update rfl spared

/-! The wrap horizon of the sequence numbers. -/

def SeqUnwrapped (storage : Storage) : Prop :=
  ∀ id, slotHeaderLooksSane (slotHeader storage id) = true →
    (slotHeader storage id).seq ≠ 0xFFFFFFFF

theorem SeqUnwrapped.unwrapped {storage : Storage} (below : SeqUnwrapped storage) :
    DoubleBuffer.Unwrapped (· + 1) (slotPair storage) := by
  intro id seq stamp
  rw [slotCopies_stamp] at stamp
  split_ifs at stamp with hidden
  obtain rfl := Option.some.inj stamp
  have sane : slotHeaderLooksSane (slotHeader storage id) = true := by
    simpa [SlotReadFaults.none] using hidden
  have small := below id sane
  rw [ne_eq, ← UInt32.toNat_inj] at small
  have limit := (slotHeader storage id).seq.toNat_lt
  rw [UInt32.lt_iff_toNat_lt, UInt32.toNat_add, UInt32.toNat_one]
  simp only [UInt32.reduceToNat] at small
  omega

end ConfigWp
