import ConfigWp.Application.PowerCycles
import ConfigWp.Application.SlotHistory

/-! What damage to a slot costs the system. The next boot over a damaged newest slot is the
boot behind a power failure in the middle of the last save, so that save is lost and
nothing else; damage to the older slot does not show. -/

set_option autoImplicit false

namespace ConfigWp

/-- Damage to the slot just written leaves a reader what it found before the write. -/
theorem SlotDamage.reread {storage changed : Storage} {payload : SlotPayload} {made : Nat}
    {committed : Option SlotPayload} (invariant : SlotRunInvariant made storage committed)
    (damage : SlotDamage (DoubleBuffer.target (· + 1) 1 (slotPair storage)).1
      (slotWrite .none storage payload.bytes).2 changed) :
    readPayload .none changed = readPayload .none storage := by
  rw [readPayload_of_invariant invariant, readPayload_none]
  have spared : slotPair (slotWrite .none storage payload.bytes).2
      (DoubleBuffer.target (· + 1) 1 (slotPair storage)).1.other =
        slotPair storage (DoubleBuffer.target (· + 1) 1 (slotPair storage)).1.other := by
    rw [(slotWrite_commit storage payload).2]
    exact DoubleBuffer.commit_spared _ _ _ _
  cases committed with
  | some last =>
      obtain ⟨seq, copy⟩ := invariant.2
      obtain ⟨chosen, kept⟩ := damage.newest (spared.trans copy)
      exact DoubleBuffer.read_of_newest chosen kept
  | none =>
      have blank := slotCopies_eq_blank
        (invariant.2 (DoubleBuffer.target (· + 1) 1 (slotPair storage)).1.other)
      have kept : (slotPair changed
          (DoubleBuffer.target (· + 1) 1 (slotPair storage)).1.other).content? = none := by
        have same : slotPair changed (DoubleBuffer.target (· + 1) 1 (slotPair storage)).1.other =
            .blank := (slotCopies_congr damage.spared).trans (spared.trans blank)
        rw [same]
        rfl
      have absent : DoubleBuffer.newest (slotPair changed) = none := by
        refine DoubleBuffer.newest_eq_none_iff.mpr fun side => ?_
        rcases DoubleBuffer.Side.eq_or_eq_other side
          (DoubleBuffer.target (· + 1) 1 (slotPair storage)).1 with rfl | rfl
        · exact damage.content?
        · exact kept
      rw [DoubleBuffer.read, absent]
      rfl

/-- Damage to the other slot leaves a reader what was just written. -/
theorem SlotDamage.unseen {storage changed : Storage} {payload : SlotPayload}
    (damage : SlotDamage (DoubleBuffer.target (· + 1) 1 (slotPair storage)).1.other
      (slotWrite .none storage payload.bytes).2 changed) :
    readPayload .none changed = some payload.bytes := by
  have copy : slotPair (slotWrite .none storage payload.bytes).2
      (DoubleBuffer.target (· + 1) 1 (slotPair storage)).1 =
        .valid (DoubleBuffer.target (· + 1) 1 (slotPair storage)).2 payload.bytes := by
    rw [(slotWrite_commit storage payload).2]
    exact DoubleBuffer.commit_target _ _ _ _
  rw [← DoubleBuffer.Side.other_other (DoubleBuffer.target (· + 1) 1 (slotPair storage)).1] at copy
  obtain ⟨chosen, kept⟩ := damage.newest copy
  rw [readPayload_none]
  exact DoubleBuffer.read_of_newest chosen kept

end ConfigWp
