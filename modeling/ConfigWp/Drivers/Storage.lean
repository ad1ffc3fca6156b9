import ConfigWp.Library.Splice

/-! The byte-addressed medium of `drivers/storage.c`, with the faults a real
medium adds to it: a read that fails, and a write that reaches the medium only
in part before it fails or the power goes. -/

set_option autoImplicit false

namespace ConfigWp

inductive StorageStatus where
  | errIo
  | errRange
  deriving DecidableEq, Repr

def storageBytes : Nat := 4 * 1024

/-- `s_backing` once `storage_init` has run. -/
structure Storage where
  bytes : List UInt8
  size_eq : bytes.length = storageBytes

namespace Storage

@[ext] theorem ext {left right : Storage} (same : left.bytes = right.bytes) : left = right := by
  cases left
  cases right
  simpa using same

end Storage

def storageInit : Storage := ⟨List.replicate storageBytes 0xFF, by simp⟩

def storageRead (storage : Storage) (offset len : Nat) : Except StorageStatus (List UInt8) :=
  if offset + len > storageBytes then .error .errRange
  else .ok (Splice.window storage.bytes offset len)

def storageWrite (storage : Storage) (offset : Nat) (data : List UInt8) :
    Except StorageStatus Storage :=
  if bound : offset + data.length ≤ storageBytes then
    .ok ⟨Splice.overwrite storage.bytes offset data, by
      rw [Splice.length_overwrite (by rw [storage.size_eq]; exact bound), storage.size_eq]⟩
  else .error .errRange

/-- How far a write gets: all of it, or a byte prefix before the call stops. -/
inductive WriteOutcome where
  | complete
  | cut (written : Nat)
  deriving DecidableEq, Repr

def storageReadFaulty (fails : Bool) (storage : Storage) (offset len : Nat) :
    Except StorageStatus (List UInt8) :=
  if fails then .error .errIo else storageRead storage offset len

def WriteOutcome.reached (outcome : WriteOutcome) (data : List UInt8) : List UInt8 :=
  match outcome with
  | .complete => data
  | .cut written => data.take written

/-- `storage_write` on a medium that may stop part of the way. -/
def storageWriteFaulty (outcome : WriteOutcome) (storage : Storage) (offset : Nat)
    (data : List UInt8) : Except StorageStatus Unit × Storage :=
  if offset + data.length > storageBytes then (.error .errRange, storage)
  else
    match storageWrite storage offset (outcome.reached data) with
    | .error status => (.error status, storage)
    | .ok written => (if outcome = .complete then .ok () else .error .errIo, written)

theorem WriteOutcome.length_reached_le (outcome : WriteOutcome) (data : List UInt8) :
    (outcome.reached data).length ≤ data.length := by
  cases outcome with
  | complete => exact Nat.le_refl _
  | cut written => exact List.length_take_le' written data

theorem storageRead_of_le {storage : Storage} {offset len : Nat}
    (bound : offset + len ≤ storageBytes) :
    storageRead storage offset len = .ok (Splice.window storage.bytes offset len) := by
  rw [storageRead, if_neg (by omega)]

theorem storageReadFaulty_of_le {fails : Bool} {storage : Storage} {offset len : Nat}
    (bound : offset + len ≤ storageBytes) :
    storageReadFaulty fails storage offset len =
      if fails then .error .errIo else .ok (Splice.window storage.bytes offset len) := by
  rw [storageReadFaulty, storageRead_of_le bound]

theorem storageWrite_of_le {storage : Storage} {offset : Nat} {data : List UInt8}
    (bound : offset + data.length ≤ storageBytes) :
    ∃ written, storageWrite storage offset data = .ok written ∧
      written.bytes = Splice.overwrite storage.bytes offset data := by
  rw [storageWrite, dif_pos bound]
  exact ⟨_, rfl, rfl⟩

theorem storageWriteFaulty_of_le {outcome : WriteOutcome} {storage : Storage} {offset : Nat}
    {data : List UInt8} (bound : offset + data.length ≤ storageBytes) :
    ∃ written, storageWriteFaulty outcome storage offset data =
        (if outcome = .complete then .ok () else .error .errIo, written) ∧
      written.bytes = Splice.overwrite storage.bytes offset (outcome.reached data) := by
  have shorter := outcome.length_reached_le data
  obtain ⟨written, succeeded, shape⟩ :=
    @storageWrite_of_le storage offset (outcome.reached data) (by omega)
  refine ⟨written, ?_, shape⟩
  rw [storageWriteFaulty, if_neg (by omega), succeeded]

end ConfigWp
