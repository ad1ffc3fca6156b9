import ConfigWp.Application.SlotCorruption

/-! Flipped bits anywhere in a valid slot. The header up to its checksum and the payload
are one message, and its checksum lies between the two: with the length field kept, any
one or two flipped bits of the slot leave it invalid, however far apart they are. -/

set_option autoImplicit false

namespace ConfigWp

open LittleEndian ShiftRegister

/-- The bytes that belong to a slot with a payload of this length. -/
def slotImage (storage : Storage) (id : SlotId) (length : Nat) : List UInt8 :=
  Splice.window storage.bytes (slotOffset id) (slotHeaderBytes + length)

/-- One or two bits of a slot are flipped, outside its length field. -/
structure FewFlips (id : SlotId) (storage changed : Storage) : Prop where
  length : slotField changed id 12 4 = slotField storage id 12 4
  differ : slotImage storage id (slotHeader storage id).length.toNat ≠
    slotImage changed id (slotHeader storage id).length.toNat
  few : flips (bytesBits (slotImage storage id (slotHeader storage id).length.toNat))
    (bytesBits (slotImage changed id (slotHeader storage id).length.toNat)) ≤ 2

/-! A slot as a message and its checksum. -/

theorem length_slotField (storage : Storage) (id : SlotId) {start count : Nat}
    (inside : start + count ≤ slotTotalBytes) :
    (slotField storage id start count).length = count := by
  have medium := slotOffset_le id
  exact Splice.length_window (by rw [storage.size_eq]; omega)

theorem write32_read32_slotField (storage : Storage) (id : SlotId) {start : Nat}
    (inside : start + 4 ≤ slotTotalBytes) :
    write32 (read32 (slotField storage id start 4)) = slotField storage id start 4 := by
  have size := length_slotField storage id inside
  rw [write32_read32 size.ge, List.take_of_length_le size.le]

theorem write16_read16_slotField (storage : Storage) (id : SlotId) {start : Nat}
    (inside : start + 2 ≤ slotTotalBytes) :
    write16 (read16 (slotField storage id start 2)) = slotField storage id start 2 := by
  have size := length_slotField storage id inside
  rw [write16_read16 size.ge, List.take_of_length_le size.le]

theorem slotField_append (storage : Storage) (id : SlotId) (start first rest : Nat) :
    slotField storage id start first ++ slotField storage id (start + first) rest =
      slotField storage id start (first + rest) := by
  rw [slotField, slotField, slotField, Splice.window_append, Nat.add_assoc]

/-- The header bytes under the checksum are the ones on the medium. -/
theorem slotHeader_covered (storage : Storage) (id : SlotId) :
    (slotHeader storage id).covered = slotField storage id 0 16 := by
  have magic := slotField_append storage id 0 4 2
  have formatVer := slotField_append storage id 0 6 2
  have flags := slotField_append storage id 0 8 4
  have seq := slotField_append storage id 0 12 4
  rw [slotHeader_eq, SlotHeader.covered]
  simp only [write32_read32_slotField storage id (show 0 + 4 ≤ slotTotalBytes by decide),
    write16_read16_slotField storage id (show 4 + 2 ≤ slotTotalBytes by decide),
    write16_read16_slotField storage id (show 6 + 2 ≤ slotTotalBytes by decide),
    write32_read32_slotField storage id (show 8 + 4 ≤ slotTotalBytes by decide),
    write32_read32_slotField storage id (show 12 + 4 ≤ slotTotalBytes by decide)]
  rw [magic, formatVer, flags, seq]

theorem SlotValid.crc32 {storage : Storage} {id : SlotId} (valid : SlotValid storage id) :
    crc32Compute (slotField storage id 0 16 ++ slotPayload storage id) =
      read32 (slotField storage id 16 4) := by
  have intact := valid.intact
  rw [slotCrc_eq, slotHeader_covered, slotHeader_eq] at intact
  exact intact

theorem slotImage_eq {storage : Storage} {id : SlotId} (valid : SlotValid storage id) :
    slotImage storage id (slotHeader storage id).length.toNat =
      slotField storage id 0 16 ++ slotField storage id 16 4 ++ slotPayload storage id := by
  have header := slotField_append storage id 0 16 4
  rw [header, slotPayload_eq valid.sane, slotImage, Splice.window_append]
  rfl

/-- One or two flipped bits never leave a valid slot valid. -/
theorem not_slotValid_of_flips {storage changed : Storage} {id : SlotId}
    (valid : SlotValid storage id) (flipped : FewFlips id storage changed) :
    ¬SlotValid changed id := by
  intro still
  have lengths : (slotHeader changed id).length = (slotHeader storage id).length := by
    rw [slotHeader_eq, slotHeader_eq, flipped.length]
  have imageChanged := slotImage_eq still
  rw [lengths] at imageChanged
  obtain ⟨-, differ, few⟩ := flipped
  have size := fun storage => length_slotField storage id (show 0 + 16 ≤ slotTotalBytes by decide)
  have four := fun storage => length_slotField storage id (show 16 + 4 ≤ slotTotalBytes by decide)
  have payloads : (slotPayload storage id).length = (slotPayload changed id).length := by
    rw [length_slotPayload valid, length_slotPayload still, lengths]
  have fits := ((slotHeaderLooksSane_iff _).mp valid.sane).2.2.2
  -- Behind its message the checksum flips the same bits as between header and payload.
  have moved : flips (bytesBits (slotField storage id 0 16 ++ slotPayload storage id ++
        slotField storage id 16 4))
      (bytesBits (slotField changed id 0 16 ++ slotPayload changed id ++
        slotField changed id 16 4)) =
      flips (bytesBits (slotImage storage id (slotHeader storage id).length.toNat))
        (bytesBits (slotImage changed id (slotHeader storage id).length.toNat)) := by
    rw [slotImage_eq valid, imageChanged]
    have head := (size storage).trans (size changed).symm
    have check := (four storage).trans (four changed).symm
    rw [flips_bytesBits_append (by rw [List.length_append, List.length_append, head, payloads]),
      flips_bytesBits_append head,
      flips_bytesBits_append (by rw [List.length_append, List.length_append, head, check]),
      flips_bytesBits_append head]
    omega
  have images : (slotImage storage id (slotHeader storage id).length.toNat).length =
      (slotImage changed id (slotHeader storage id).length.toNat).length := by
    rw [slotImage_eq valid, imageChanged]
    simp only [List.length_append, size, four, payloads]
  have some := flips_bytesBits_pos images differ
  have short : (slotField storage id 0 16 ++ slotPayload storage id).length ≤ 2044 := by
    rw [List.length_append, size, length_slotPayload valid]
    exact Nat.add_le_add_left fits 16
  have apart := crc32_distance short
    (by rw [List.length_append, List.length_append, size, size, payloads])
    (four storage) (four changed) valid.crc32 still.crc32 (moved ▸ some)
  omega

/-- A slot that passes `slot_validate_full` fails it after any one or two flipped bits
outside the length field. -/
theorem slotValidateFull_flips {storage changed : Storage} {id : SlotId} {buf : List UInt8}
    (accepted :
      (slotValidateFull false storage id (slotHeader storage id) buf).valid = true)
    (flipped : FewFlips id storage changed) (fails : Bool) (scratch : List UInt8) :
    (slotValidateFull fails changed id (slotHeader changed id) scratch).valid = false := by
  have valid := slotValid_of_validateFull accepted
  exact Bool.eq_false_iff.mpr (mt slotValid_of_validateFull (not_slotValid_of_flips valid flipped))

/-- `staleNewerImage` with a bit of slot A's sequence number and one of its payload flipped. -/
def twiceFlippedImage : Storage where
  bytes := Splice.overwrite (Splice.overwrite staleNewerImage.bytes 8 [0x00]) 20 [0x10]
  size_eq := by decide +kernel

theorem slotValidateFull_twice_flipped :
    (slotValidateFull false staleNewerImage .a (slotHeader staleNewerImage .a)
        (List.replicate 2028 0)).valid = true ∧
      ∀ fails scratch, (slotValidateFull fails twiceFlippedImage .a
        (slotHeader twiceFlippedImage .a) scratch).valid = false := by
  have accepted : (slotValidateFull false staleNewerImage .a (slotHeader staleNewerImage .a)
      (List.replicate 2028 0)).valid = true := by decide +kernel
  have two : flips (bytesBits (slotImage staleNewerImage .a
        (slotHeader staleNewerImage .a).length.toNat))
      (bytesBits (slotImage twiceFlippedImage .a
        (slotHeader staleNewerImage .a).length.toNat)) = 2 := by decide +kernel
  have flipped : FewFlips .a staleNewerImage twiceFlippedImage :=
    ⟨by decide +kernel, by decide +kernel, two.le⟩
  exact ⟨accepted, slotValidateFull_flips accepted flipped⟩

end ConfigWp
