import ConfigWp.Application.Crc32Properties
import ConfigWp.Application.SlotReads
import ConfigWp.Application.SlotRuns

/-! Corruption of a valid slot. A change of at most four consecutive payload bytes, or
of the sequence number or the CRC of the header, never leaves the slot valid. -/

set_option autoImplicit false

namespace ConfigWp

open LittleEndian

/-! Changes of the medium. -/

/-- The two images differ, and only in the bytes from `start` on, `count` of them. -/
structure ConfinedTo (start count : Nat) (storage changed : Storage) : Prop where
  differ : changed ≠ storage
  outside : ∀ i, i < start ∨ start + count ≤ i → changed.bytes[i]? = storage.bytes[i]?

theorem ConfinedTo.window_eq {start count : Nat} {storage changed : Storage}
    (confined : ConfinedTo start count storage changed) {first size : Nat}
    (apart : first + size ≤ start ∨ start + count ≤ first) :
    Splice.window changed.bytes first size = Splice.window storage.bytes first size := by
  apply List.ext_getElem?
  intro i
  rw [Splice.getElem?_window, Splice.getElem?_window]
  by_cases inside : i < size
  · rw [if_pos inside, if_pos inside, confined.outside]
    omega
  · rw [if_neg inside, if_neg inside]

theorem ConfinedTo.window_ne {start count : Nat} {storage changed : Storage}
    (confined : ConfinedTo start count storage changed) :
    Splice.window changed.bytes start count ≠ Splice.window storage.bytes start count := by
  intro same
  refine confined.differ (Storage.ext (List.ext_getElem? fun i => ?_))
  by_cases inside : start ≤ i ∧ i < start + count
  · have byte := congrArg (·[i - start]?) same
    simp only [Splice.getElem?_window, if_pos (show i - start < count by omega),
      Nat.add_sub_cancel' inside.1] at byte
    exact byte
  · exact confined.outside i (by omega)

/-! The fields of a header. -/

theorem read32_window (bytes : List UInt8) (start : Nat) :
    read32 (bytes.drop start) = read32 (Splice.window bytes start 4) := by
  simp only [read32, Splice.window, List.getD_eq_getElem?_getD, List.getElem?_take]
  rfl

theorem read16_window (bytes : List UInt8) (start : Nat) :
    read16 (bytes.drop start) = read16 (Splice.window bytes start 2) := by
  simp only [read16, Splice.window, List.getD_eq_getElem?_getD, List.getElem?_take]
  rfl

/-- The bytes of a header field on the medium. -/
def slotField (storage : Storage) (id : SlotId) (start count : Nat) : List UInt8 :=
  Splice.window storage.bytes (slotOffset id + start) count

/-- A header is read field by field from the bytes of the medium. -/
theorem slotHeader_eq (storage : Storage) (id : SlotId) :
    slotHeader storage id =
      { magic := read32 (slotField storage id 0 4)
        formatVer := read16 (slotField storage id 4 2)
        flags := read16 (slotField storage id 6 2)
        seq := read32 (slotField storage id 8 4)
        length := read32 (slotField storage id 12 4)
        crc32 := read32 (slotField storage id 16 4) } := by
  have shown : ∀ start count, start + count ≤ slotHeaderBytes →
      Splice.window ((slotRegion storage id).take slotHeaderBytes) start count =
        slotField storage id start count := by
    intro start count inside
    have room : slotHeaderBytes ≤ slotTotalBytes := by decide
    rw [← Splice.window_zero, Splice.window_window inside, slotRegion,
      Splice.window_window (by omega), Nat.zero_add, slotField]
  rw [slotHeader, SlotHeader.ofBytes]
  have first := read32_window ((slotRegion storage id).take slotHeaderBytes) 0
  rw [List.drop_zero] at first
  rw [first]
  simp only [read32_window, read16_window, shown 0 4 (by decide), shown 4 2 (by decide),
    shown 6 2 (by decide), shown 8 4 (by decide), shown 12 4 (by decide), shown 16 4 (by decide)]

theorem ConfinedTo.slotField_eq {first count : Nat} {storage changed : Storage}
    (confined : ConfinedTo first count storage changed) (id : SlotId) {start size : Nat}
    (apart : slotOffset id + start + size ≤ first ∨ first + count ≤ slotOffset id + start) :
    slotField changed id start size = slotField storage id start size :=
  confined.window_eq apart

/-! Valid slots. -/

theorem slotValid_of_validateFull {fails : Bool} {storage : Storage} {id : SlotId}
    {buf : List UInt8}
    (accepted : (slotValidateFull fails storage id (slotHeader storage id) buf).valid = true) :
    SlotValid storage id := by
  rw [slotValidateFull] at accepted
  cases sane : slotHeaderLooksSane (slotHeader storage id) with
  | false => simp [sane] at accepted
  | true =>
      rw [if_neg (by simp [sane])] at accepted
      split_ifs at accepted with large
      rw [slotReadPayload_eq fails storage id sane] at accepted
      cases fails with
      | true => cases accepted
      | false => exact ⟨sane, beq_iff_eq.mp accepted⟩

theorem slotPayload_eq {storage : Storage} {id : SlotId}
    (sane : slotHeaderLooksSane (slotHeader storage id) = true) :
    slotPayload storage id = Splice.window storage.bytes (slotPayloadOffset id)
      (slotHeader storage id).length.toNat := by
  have fits := ((slotHeaderLooksSane_iff _).mp sane).2.2.2
  rw [slotPayload, regionPayload, slotRegion, slotPayloadOffset,
    Splice.window_window (by simp only [slotTotalBytes]; omega)]

theorem slotCrc_eq (hdr : SlotHeader) (payload : List UInt8) :
    slotCrc hdr payload = crc32End (crc32Step crc32Start (hdr.covered ++ payload)) := by
  rw [slotCrc, crc32Step_append]

theorem crc32End_injective {left right : UInt32} (same : crc32End left = crc32End right) :
    left = right := by
  have cancelled := congrArg (· ^^^ (0xFFFFFFFF : UInt32)) same
  simpa [crc32End, UInt32.xor_assoc] using cancelled

theorem read32_window_ne {xs ys : List UInt8} {start : Nat} (roomX : start + 4 ≤ xs.length)
    (roomY : start + 4 ≤ ys.length)
    (differ : Splice.window ys start 4 ≠ Splice.window xs start 4) :
    read32 (Splice.window ys start 4) ≠ read32 (Splice.window xs start 4) := by
  intro same
  have sizeX := Splice.length_window roomX
  have sizeY := Splice.length_window roomY
  have words := congrArg write32 same
  rw [write32_read32 sizeX.ge, write32_read32 sizeY.ge, List.take_of_length_le sizeX.le,
    List.take_of_length_le sizeY.le] at words
  exact differ words

/-! What the checksum of a slot tells apart. -/

theorem slotCrc_ne_of_burst {left right : List UInt8} (same : left.length = right.length)
    (short : left.length ≤ 4) (differ : left ≠ right) (hdr : SlotHeader)
    (before after : List UInt8) :
    slotCrc hdr (before ++ left ++ after) ≠ slotCrc hdr (before ++ right ++ after) := by
  intro agree
  rw [slotCrc_eq, slotCrc_eq] at agree
  simp only [← List.append_assoc] at agree
  exact crc32Step_ne_of_burst same short differ _ _ _ (crc32End_injective agree)

theorem slotCrc_ne_of_seq {hdr : SlotHeader} {seq : UInt32} (moved : seq ≠ hdr.seq)
    (payload : List UInt8) : slotCrc { hdr with seq := seq } payload ≠ slotCrc hdr payload := by
  intro agree
  have differ : write32 seq ≠ write32 hdr.seq := by
    intro same
    have words := congrArg read32 same
    rw [← List.append_nil (write32 seq), ← List.append_nil (write32 hdr.seq), read32_write32,
      read32_write32] at words
    exact moved words
  rw [slotCrc_eq, slotCrc_eq, SlotHeader.covered, SlotHeader.covered, List.append_assoc,
    List.append_assoc (_ ++ write32 hdr.seq)] at agree
  exact @crc32Step_ne_of_burst (write32 seq) (write32 hdr.seq) rfl (Nat.le_refl 4) differ _ _ _
    (crc32End_injective agree)

/-! The three kinds of short burst. -/

/-- A change of at most four consecutive payload bytes, of the sequence number, or of the
stored CRC. -/
inductive ShortBurst (id : SlotId) (storage changed : Storage) : Prop where
  | payload (start count : Nat) (short : count ≤ 4)
      (inside : start + count ≤ (slotHeader storage id).length.toNat)
      (confined : ConfinedTo (slotPayloadOffset id + start) count storage changed)
  | seq (confined : ConfinedTo (slotOffset id + 8) 4 storage changed)
  | crc32 (confined : ConfinedTo (slotOffset id + 16) 4 storage changed)

theorem slotOffset_le (id : SlotId) : slotOffset id + slotTotalBytes ≤ storageBytes := by
  cases id <;> decide

theorem ConfinedTo.field_ne {id : SlotId} {start : Nat} {storage changed : Storage}
    (inside : start + 4 ≤ slotHeaderBytes)
    (confined : ConfinedTo (slotOffset id + start) 4 storage changed) :
    read32 (slotField changed id start 4) ≠ read32 (slotField storage id start 4) := by
  have room : ∀ storage : Storage, slotOffset id + start + 4 ≤ storage.bytes.length := by
    intro storage
    have medium := slotOffset_le id
    rw [slotTotalBytes] at medium
    rw [storage.size_eq]
    omega
  exact read32_window_ne (room storage) (room changed) confined.window_ne

/-- A change behind the header leaves the header as it is. -/
theorem slotHeader_of_payload {id : SlotId} {start count : Nat} {storage changed : Storage}
    (confined : ConfinedTo (slotPayloadOffset id + start) count storage changed) :
    slotHeader changed id = slotHeader storage id := by
  have kept : ∀ first size, first + size ≤ slotHeaderBytes →
      slotField changed id first size = slotField storage id first size := by
    intro first size inside
    exact confined.slotField_eq id (.inl (by rw [slotPayloadOffset]; omega))
  rw [slotHeader_eq, slotHeader_eq, kept 0 4 (by decide), kept 4 2 (by decide),
    kept 6 2 (by decide), kept 8 4 (by decide), kept 12 4 (by decide), kept 16 4 (by decide)]

/-- A change of the header that keeps the length keeps the payload. -/
theorem slotPayload_of_header {id : SlotId} {start count : Nat} {storage changed : Storage}
    (inside : start + count ≤ slotHeaderBytes)
    (confined : ConfinedTo (slotOffset id + start) count storage changed)
    (valid : SlotValid storage id) (still : SlotValid changed id)
    (lengths : (slotHeader changed id).length = (slotHeader storage id).length) :
    slotPayload changed id = slotPayload storage id := by
  rw [slotPayload_eq valid.sane, slotPayload_eq still.sane, lengths]
  exact confined.window_eq (.inr (by rw [slotPayloadOffset]; omega))

theorem not_slotValid_of_payload {id : SlotId} {start count : Nat} {storage changed : Storage}
    (valid : SlotValid storage id) (short : count ≤ 4)
    (inside : start + count ≤ (slotHeader storage id).length.toNat)
    (confined : ConfinedTo (slotPayloadOffset id + start) count storage changed) :
    ¬SlotValid changed id := by
  intro still
  have header := slotHeader_of_payload confined
  have fits := ((slotHeaderLooksSane_iff _).mp valid.sane).2.2.2
  have medium := slotOffset_le id
  have room : slotPayloadOffset id + start + count ≤ storageBytes := by
    simp only [slotPayloadOffset, slotTotalBytes] at *
    omega
  have size : ∀ storage : Storage,
      (Splice.window storage.bytes (slotPayloadOffset id + start) count).length = count :=
    fun storage => Splice.length_window (room.trans_eq storage.size_eq.symm)
  obtain ⟨rest, total⟩ := Nat.exists_eq_add_of_le inside
  -- The payload falls into the bytes before the burst, the burst and the bytes after it.
  have split : ∀ storage : Storage, Splice.window storage.bytes (slotPayloadOffset id)
      (slotHeader changed id).length.toNat =
        Splice.window storage.bytes (slotPayloadOffset id) start ++
          Splice.window storage.bytes (slotPayloadOffset id + start) count ++
          Splice.window storage.bytes (slotPayloadOffset id + (start + count)) rest := by
    intro storage
    rw [header, total, Splice.window_append, Splice.window_append]
  have before : Splice.window changed.bytes (slotPayloadOffset id) start =
      Splice.window storage.bytes (slotPayloadOffset id) start :=
    confined.window_eq (.inl (Nat.le_refl _))
  have after : Splice.window changed.bytes (slotPayloadOffset id + (start + count)) rest =
      Splice.window storage.bytes (slotPayloadOffset id + (start + count)) rest :=
    confined.window_eq (.inr (Nat.add_assoc _ _ _).le)
  have crc := still.intact
  rw [slotPayload_eq still.sane, split, before, after, header, ← valid.intact,
    slotPayload_eq valid.sane, ← header, split] at crc
  exact slotCrc_ne_of_burst ((size changed).trans (size storage).symm)
    ((size changed).le.trans short) confined.window_ne _ _ _ crc

theorem not_slotValid_of_seq {id : SlotId} {storage changed : Storage}
    (valid : SlotValid storage id)
    (confined : ConfinedTo (slotOffset id + 8) 4 storage changed) : ¬SlotValid changed id := by
  intro still
  have header : slotHeader changed id =
      { slotHeader storage id with seq := (slotHeader changed id).seq } := by
    have kept : ∀ first size, first + size ≤ 8 ∨ 12 ≤ first →
        slotField changed id first size = slotField storage id first size := by
      intro first size apart
      exact confined.slotField_eq id (by omega)
    rw [slotHeader_eq, slotHeader_eq, kept 0 4 (by decide), kept 4 2 (by decide),
      kept 6 2 (by decide), kept 12 4 (by decide), kept 16 4 (by decide)]
  have moved : (slotHeader changed id).seq ≠ (slotHeader storage id).seq := by
    rw [slotHeader_eq, slotHeader_eq]
    exact confined.field_ne (by decide)
  have lengths := congrArg SlotHeader.length header
  have checks := congrArg SlotHeader.crc32 header
  have crc := still.intact
  rw [checks, slotPayload_of_header (by decide) confined valid still lengths, header] at crc
  exact slotCrc_ne_of_seq moved _ (crc.trans valid.intact.symm)

theorem not_slotValid_of_crc32 {id : SlotId} {storage changed : Storage}
    (valid : SlotValid storage id)
    (confined : ConfinedTo (slotOffset id + 16) 4 storage changed) : ¬SlotValid changed id := by
  intro still
  have kept : ∀ first size, first + size ≤ 16 →
      slotField changed id first size = slotField storage id first size := by
    intro first size apart
    exact confined.slotField_eq id (by omega)
  have header : slotHeader changed id =
      { slotHeader storage id with crc32 := (slotHeader changed id).crc32 } := by
    rw [slotHeader_eq, slotHeader_eq, kept 0 4 (by decide), kept 4 2 (by decide),
      kept 6 2 (by decide), kept 8 4 (by decide), kept 12 4 (by decide)]
  have moved : (slotHeader changed id).crc32 ≠ (slotHeader storage id).crc32 := by
    rw [slotHeader_eq, slotHeader_eq]
    exact confined.field_ne (by decide)
  have lengths := congrArg SlotHeader.length header
  have crc := still.intact
  -- The checksum covers the header up to its own field.
  have covers : slotCrc (slotHeader changed id) = slotCrc (slotHeader storage id) := by
    rw [header]
    rfl
  rw [slotPayload_of_header (by decide) confined valid still lengths, covers, valid.intact] at crc
  exact moved crc.symm

/-- A slot that passes `slot_validate_full` fails it after any short burst, whatever the
payload, the place and the bits. -/
theorem slotValidateFull_burst {storage changed : Storage} {id : SlotId} {buf : List UInt8}
    (accepted :
      (slotValidateFull false storage id (slotHeader storage id) buf).valid = true)
    (burst : ShortBurst id storage changed) (fails : Bool) (scratch : List UInt8) :
    (slotValidateFull fails changed id (slotHeader changed id) scratch).valid = false := by
  have valid := slotValid_of_validateFull accepted
  have broken : ¬SlotValid changed id := by
    cases burst with
    | payload start count short inside confined =>
        exact not_slotValid_of_payload valid short inside confined
    | seq confined => exact not_slotValid_of_seq valid confined
    | crc32 confined => exact not_slotValid_of_crc32 valid confined
  exact Bool.eq_false_iff.mpr (mt slotValid_of_validateFull broken)

/-- `staleNewerImage` with the payload byte of slot A changed. -/
def flippedImage : Storage where
  bytes := Splice.overwrite staleNewerImage.bytes (slotPayloadOffset .a) [0x12]
  size_eq := by decide +kernel

theorem slotValidateFull_flipped :
    (slotValidateFull false staleNewerImage .a (slotHeader staleNewerImage .a)
        (List.replicate 2028 0)).valid = true ∧
      ∀ fails scratch, (slotValidateFull fails flippedImage .a (slotHeader flippedImage .a)
        scratch).valid = false := by
  have accepted : (slotValidateFull false staleNewerImage .a (slotHeader staleNewerImage .a)
      (List.replicate 2028 0)).valid = true := by decide +kernel
  have confined : ConfinedTo (slotPayloadOffset .a + 0) 1 staleNewerImage flippedImage := by
    constructor
    · intro same
      have byte : flippedImage.bytes[20]? = staleNewerImage.bytes[20]? := by rw [same]
      revert byte
      decide +kernel
    · intro i apart
      rw [flippedImage, Splice.getElem?_overwrite (by decide +kernel)]
      rcases apart with before | after
      · exact if_pos before
      · rw [if_neg (by omega)]
        exact if_neg (Nat.not_lt.mpr after)
  exact ⟨accepted, slotValidateFull_burst accepted
    (.payload 0 1 (by decide) (by decide +kernel) confined)⟩

end ConfigWp
