import ConfigWp.Application.FieldPatches
import ConfigWp.Application.Validity
import Mathlib.Data.Nat.Bitwise

/-! One entry of an import. Everything a turn of the array loop can do is listed
once; what an entry stores is the patch of the cached record, and the mask of the
loop is the set of channels met so far. -/

set_option autoImplicit false

namespace ConfigWp

/-! The mask of channels. -/

def maskHas (seen : UInt32) (channel : Nat) : Bool := seen.toNat.testBit channel

def maskMark (seen : UInt32) (channel : Nat) : UInt32 :=
  seen ||| (1 <<< (UInt8.ofNat channel).toUInt32)

private theorem maskBit_toNat {channel : Nat} (small : channel < 32) :
    ((1 : UInt32) <<< (UInt8.ofNat channel).toUInt32).toNat = 2 ^ channel := by
  have kept : (UInt8.ofNat channel).toNat = channel := by
    rw [UInt8.toNat_ofNat']
    omega
  rw [UInt32.toNat_shiftLeft, UInt8.toNat_toUInt32, kept, Nat.mod_eq_of_lt small,
    UInt32.toNat_one, Nat.one_shiftLeft, Nat.mod_eq_of_lt (Nat.pow_lt_pow_right (by decide) small)]

theorem mask_and_ne_zero {seen : UInt32} {channel : Nat} (small : channel < 32) :
    seen &&& (1 <<< (UInt8.ofNat channel).toUInt32) ≠ 0 ↔ maskHas seen channel = true := by
  rw [ne_eq, ← UInt32.toNat_inj, UInt32.toNat_and, maskBit_toNat small, UInt32.toNat_zero,
    Nat.and_two_pow, maskHas]
  cases seen.toNat.testBit channel <;> simp

theorem maskHas_zero (channel : Nat) : maskHas 0 channel = false := by
  simp [maskHas]

theorem maskHas_mark {channel : Nat} (small : channel < 32) (seen : UInt32) (other : Nat) :
    maskHas (maskMark seen channel) other = (maskHas seen other || decide (channel = other)) := by
  rw [maskHas, maskMark, UInt32.toNat_or, maskBit_toNat small, Nat.testBit_or,
    Nat.testBit_two_pow, maskHas]

theorem maskHas_channel {domain : Domain} (seen : UInt32) (place channel : Fin domain.count) :
    maskHas (maskMark seen place) channel = (maskHas seen channel || decide (place = channel)) := by
  have bound := place.isLt
  have few := domain.count_le
  rw [maskHas_mark (by omega)]
  simp only [Fin.val_inj]

/-! What an entry addresses and what it stores. -/

theorem truncate_toNat_lt {value : Rat} {count : Nat} (nonneg : 0 ≤ value)
    (below : value < (count : Rat)) : (truncate value).toNat < count := by
  have rounded : truncate value < (count : Int) := by
    rw [truncate_of_nonneg nonneg]
    exact Rat.floor_lt_iff.mpr (by exact_mod_cast below)
  have low := @le_truncate value 0 (by exact_mod_cast nonneg)
  omega

/-- The channel an entry addresses: an object with a number in the range of the type. -/
def entryChannel (domain : Domain) (item : Json) : Option (Fin domain.count) :=
  match cJsonGetObjectItemCaseSensitive item "channel" with
  | some (.number chv) =>
      if inside : 0 ≤ chv ∧ chv < (domain.count : Rat) then
        some ⟨(truncate chv).toNat, truncate_toNat_lt inside.1 inside.2⟩
      else none
  | _ => none

section Entries

variable (undefined : Rat → Int32)

/-- The record an entry puts in the place of a cached one, if it does. -/
def storedRecord (domain : Domain) (item : Json) (old : domain.Record) : Option domain.Record :=
  (patchRecord undefined domain item old).filter (validate domain)

theorem storedRecord_eq_some_iff {domain : Domain} {item : Json} {old new : domain.Record} :
    storedRecord undefined domain item old = some new ↔
      patchRecord undefined domain item old = some new ∧ validate domain new = true := by
  rw [storedRecord, Option.filter_eq_some_iff]

/-- Storing an entry a second time changes nothing. -/
theorem storedRecord_again {domain : Domain} {item : Json} {old new : domain.Record}
    (stored : storedRecord undefined domain item old = some new) :
    storedRecord undefined domain item new = some new := by
  rw [storedRecord_eq_some_iff] at stored ⊢
  exact ⟨patchRecord_again undefined stored.1, stored.2⟩

def Manager.store (m : Manager) (key : RecordKey) (record : key.domain.Record) : Manager :=
  { m with cache := m.cache.set key record }

theorem applyChannel_ready {domain : Domain} {state : Import} (arrName : String)
    (channel : Fin domain.count) (item : Json) (ready : state.manager.initialised = true) :
    (storedRecord undefined domain item (state.manager.cache.get ⟨domain, channel⟩) = none ∧
      ∃ text, text ≠ "" ∧
        applyChannel undefined domain arrName (UInt8.ofNat channel) item state =
          state.reject text) ∨
    ∃ record, storedRecord undefined domain item (state.manager.cache.get ⟨domain, channel⟩) =
        some record ∧
      applyChannel undefined domain arrName (UInt8.ofNat channel) item state =
        state.accept (state.manager.store ⟨domain, channel⟩ record) := by
  rw [applyChannel, configGetRecord_channel ready channel, storedRecord]
  dsimp only
  cases patchRecord undefined domain item (state.manager.cache.get ⟨domain, channel⟩) with
  | none => exact .inl ⟨rfl, _, by simp, rfl⟩
  | some record =>
      dsimp only
      rw [configSetRecord_channel ready channel]
      cases accepted : validate domain record with
      | false => exact .inl ⟨by simp [accepted], _, by simp, rfl⟩
      | true => exact .inr ⟨record, by simp [accepted], rfl⟩

theorem applyEntry_unaddressed {domain : Domain} {members : List (List UInt8 × Json)}
    (nowhere : entryChannel domain (.object members) = none) (arrName : String) (i : Nat)
    (seen : UInt32) (state : Import) :
    ∃ text, text ≠ "" ∧
      applyEntry undefined domain arrName i (.object members) seen state =
        (seen, state.reject text) := by
  rw [applyEntry]
  rw [entryChannel] at nowhere
  cases named : cJsonGetObjectItemCaseSensitive (.object members) "channel" with
  | none => exact ⟨_, by simp, rfl⟩
  | some found =>
      cases found with
      | number chv =>
          rw [named] at nowhere
          dsimp only at nowhere ⊢
          split_ifs at nowhere with inside
          rw [not_and_or, not_le, not_lt] at inside
          rw [if_pos inside]
          exact ⟨_, by simp, rfl⟩
      | _ => exact ⟨_, by simp, rfl⟩

theorem applyEntry_addressed {domain : Domain} {item : Json} {channel : Fin domain.count}
    (addressed : entryChannel domain item = some channel) (arrName : String) (i : Nat)
    (seen : UInt32) (state : Import) :
    ∃ text, text ≠ "" ∧
      applyEntry undefined domain arrName i item seen state =
        if maskHas seen channel then (seen, state.reject text)
        else (maskMark seen channel,
          applyChannel undefined domain arrName (UInt8.ofNat channel) item state) := by
  have bound := channel.isLt
  have small := domain.count_le
  have met := @mask_and_ne_zero seen channel (by omega)
  rw [entryChannel] at addressed
  cases item with
  | object members =>
      rw [applyEntry]
      cases named : cJsonGetObjectItemCaseSensitive (.object members) "channel" with
      | none =>
          rw [named] at addressed
          cases addressed
      | some found =>
          rw [named] at addressed
          cases found with
          | number chv =>
              dsimp only at addressed met ⊢
              split_ifs at addressed with inside
              obtain rfl := Option.some.inj addressed
              rw [if_neg (by simpa only [not_or, not_lt, ge_iff_le, not_le] using inside)]
              simp only [met]
              exact ⟨_, by simp, rfl⟩
          | _ => cases addressed
  | _ => cases addressed

/-- Everything one turn of the array loop can do on a ready manager. -/
inductive EntryEffect (domain : Domain) (item : Json) (seen : UInt32) (state : Import) :
    UInt32 × Import → Prop where
  | skipped (null : item = .null) : EntryEffect domain item seen state (seen, state)
  | malformed (text : String) (worded : text ≠ "") (shape : ¬(∃ members, item = .object members))
      (present : item ≠ .null) : EntryEffect domain item seen state (seen, state.malform text)
  | unaddressed (text : String) (worded : text ≠ "") (shape : ∃ members, item = .object members)
      (nowhere : entryChannel domain item = none) :
      EntryEffect domain item seen state (seen, state.reject text)
  | duplicate (text : String) (worded : text ≠ "") (channel : Fin domain.count)
      (addressed : entryChannel domain item = some channel) (met : maskHas seen channel = true) :
      EntryEffect domain item seen state (seen, state.reject text)
  | refused (text : String) (worded : text ≠ "") (channel : Fin domain.count)
      (addressed : entryChannel domain item = some channel) (fresh : maskHas seen channel = false)
      (unfit : storedRecord undefined domain item
        (state.manager.cache.get ⟨domain, channel⟩) = none) :
      EntryEffect domain item seen state (maskMark seen channel, state.reject text)
  | applied (channel : Fin domain.count) (record : domain.Record)
      (addressed : entryChannel domain item = some channel) (fresh : maskHas seen channel = false)
      (stored : storedRecord undefined domain item
        (state.manager.cache.get ⟨domain, channel⟩) = some record) :
      EntryEffect domain item seen state
        (maskMark seen channel, state.accept (state.manager.store ⟨domain, channel⟩ record))

theorem applyEntry_effect (domain : Domain) (arrName : String) (i : Nat) (item : Json)
    (seen : UInt32) {state : Import} (ready : state.manager.initialised = true) :
    EntryEffect undefined domain item seen state
      (applyEntry undefined domain arrName i item seen state) := by
  cases item with
  | null => exact .skipped rfl
  | object members =>
      cases addressed : entryChannel domain (.object members) with
      | none =>
          obtain ⟨text, worded, outcome⟩ :=
            applyEntry_unaddressed undefined addressed arrName i seen state
          rw [outcome]
          exact .unaddressed text worded ⟨members, rfl⟩ addressed
      | some channel =>
          obtain ⟨text, worded, outcome⟩ :=
            applyEntry_addressed undefined addressed arrName i seen state
          rw [outcome]
          cases met : maskHas seen channel with
          | true => exact .duplicate text worded channel addressed met
          | false =>
              rcases applyChannel_ready undefined arrName channel (.object members) ready with
                ⟨unfit, text, worded, refused⟩ | ⟨record, stored, accepted⟩
              · rw [refused]
                exact .refused text worded channel addressed met unfit
              · rw [accepted]
                exact .applied channel record addressed met stored
  | _ => exact .malformed _ (by simp) (by rintro ⟨members, same⟩; cases same) (by simp)

/-! The system member. -/

abbrev RecordKey.system : RecordKey := ⟨.system, ⟨0, Nat.one_pos⟩⟩

inductive SystemEffect (child : Json) (state : Import) : Import → Prop where
  | malformed (text : String) (worded : text ≠ "") (shape : ¬∃ members, child = .object members) :
      SystemEffect child state (state.malform text)
  | refused (text : String) (worded : text ≠ "") (shape : ∃ members, child = .object members)
      (unfit : storedRecord undefined .system child (state.manager.cache.get .system) = none) :
      SystemEffect child state (state.reject text)
  | applied (record : SystemConfig) (shape : ∃ members, child = .object members)
      (stored : storedRecord undefined .system child (state.manager.cache.get .system) =
        some record) :
      SystemEffect child state (state.accept (state.manager.store .system record))

theorem importSystem_effect (child : Json) {state : Import}
    (ready : state.manager.initialised = true) :
    SystemEffect undefined child state (importSystem undefined child state) := by
  cases child with
  | object members =>
      have cached : configGetSystem state.manager = .ok state.manager.cache.system := by
        rw [configGetSystem, if_neg (by simp [ready])]
      have patch : storedRecord undefined .system (.object members)
          (state.manager.cache.get .system) =
            (patchSystemRecord undefined (.object members) state.manager.cache.system).filter
              validateSystem := rfl
      rw [importSystem, cached]
      dsimp only
      cases patched : patchSystemRecord undefined (.object members) state.manager.cache.system with
      | none => exact .refused _ (by decide) ⟨members, rfl⟩ (by rw [patch, patched]; rfl)
      | some record =>
          rw [patched] at patch
          dsimp only
          rw [configSetSystem, if_neg (by simp [ready])]
          dsimp only
          cases accepted : validateSystem record with
          | false => exact .refused _ (by decide) ⟨members, rfl⟩ (by rw [patch]; simp [accepted])
          | true => exact .applied record ⟨members, rfl⟩ (by rw [patch]; simp [accepted])
  | _ => exact .malformed _ (by decide) (by rintro ⟨members, same⟩; cases same)

end Entries

end ConfigWp
