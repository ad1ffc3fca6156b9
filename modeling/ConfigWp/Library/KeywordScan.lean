import Mathlib.Data.List.DropRight
import Mathlib.Data.List.TakeWhile

/-! Keyword lines read through a bounded buffer: the line is cut to the room of the
buffer, trimmed on its right, and compared up to its first stop symbol. Every line that
is a keyword is taken for it. A line that is not is taken for it in two cases, when a
stop symbol hides the rest of the line, and when blanks fill the room behind the keyword
and the rest is cut off. -/

set_option autoImplicit false

namespace KeywordScan

variable {Symbol : Type} (blank stop : Symbol → Bool)

def trimmed (line : List Symbol) : List Symbol := line.rdropWhile blank

/-- What is compared with the keywords. -/
def scanned (room : Nat) (line : List Symbol) : List Symbol :=
  (trimmed blank (line.take room)).takeWhile fun symbol => !stop symbol

/-- What a keyword must be for this scan: short enough, without a stop symbol, and not
ending in a blank. -/
structure Keyword (room : Nat) (keyword : List Symbol) : Prop where
  fits : keyword.length < room
  unstopped : ∀ symbol ∈ keyword, stop symbol = false
  inked : ∀ nonempty : keyword ≠ [], blank (keyword.getLast nonempty) = false

/-- A stop symbol follows the keyword. -/
def Stopped (keyword line : List Symbol) : Prop :=
  ∃ symbol, stop symbol = true ∧ keyword ++ [symbol] <+: line

/-- Blanks fill the room behind the keyword, and something else follows. -/
structure Overrun (room : Nat) (keyword line : List Symbol) : Prop where
  starts : keyword <+: line
  filled : ∀ symbol ∈ (line.take room).drop keyword.length, blank symbol = true
  continues : ∃ symbol ∈ line.drop room, blank symbol = false

/-! Trimming and stopping. -/

variable {blank stop}

theorem trimmed_eq_iff {keyword line : List Symbol}
    (inked : ∀ nonempty : keyword ≠ [], blank (keyword.getLast nonempty) = false) :
    trimmed blank line = keyword ↔
      ∃ gap, line = keyword ++ gap ∧ ∀ symbol ∈ gap, blank symbol = true := by
  constructor
  · rintro rfl
    exact ⟨line.rtakeWhile blank, List.rdropWhile_append_rtakeWhile.symm,
      fun symbol => List.mem_rtakeWhile_imp⟩
  · rintro ⟨gap, rfl, blanks⟩
    have dropped : trimmed blank (keyword ++ gap) = trimmed blank keyword := by
      rw [trimmed, trimmed, List.rdropWhile, List.reverse_append,
        List.dropWhile_append_of_pos fun symbol member =>
          blanks symbol (List.mem_reverse.mp member), List.rdropWhile]
    rw [dropped]
    exact List.rdropWhile_eq_self_iff.mpr fun nonempty =>
      Bool.not_eq_true _ ▸ inked nonempty

theorem takeWhile_eq_iff {keyword line : List Symbol}
    (unstopped : ∀ symbol ∈ keyword, stop symbol = false) :
    (line.takeWhile fun symbol => !stop symbol) = keyword ↔
      line = keyword ∨ Stopped stop keyword line := by
  induction keyword generalizing line with
  | nil =>
      cases line with
      | nil => simp
      | cons head rest =>
          cases stops : stop head with
          | false => simp [Stopped, stops]
          | true =>
              refine iff_of_true (by simp [stops]) (.inr ⟨head, stops, ?_⟩)
              exact ⟨rest, rfl⟩
  | cons first keyword ih =>
      have passes : stop first = false := unstopped first List.mem_cons_self
      cases line with
      | nil => simp [Stopped]
      | cons head line =>
          by_cases same : head = first
          · subst same
            have further := @ih line fun symbol member =>
              unstopped symbol (List.mem_cons_of_mem _ member)
            simpa [Stopped, passes, List.cons_prefix_cons] using further
          · refine iff_of_false ?_ ?_
            · cases stops : stop head <;> simp [stops, same]
            · rintro (equal | ⟨symbol, -, starts⟩)
              · exact same (List.cons.inj equal).1
              · exact same (List.cons_prefix_cons.mp starts).1.symm

/-- Trimming keeps what ends in a symbol that is no blank. -/
theorem prefix_trimmed_iff {keyword line : List Symbol} {symbol : Symbol}
    (inked : blank symbol = false) :
    keyword ++ [symbol] <+: trimmed blank line ↔ keyword ++ [symbol] <+: line := by
  constructor
  · exact fun starts => starts.trans (List.rdropWhile_prefix blank line)
  · intro starts
    have whole : trimmed blank line ++ line.rtakeWhile blank = line :=
      List.rdropWhile_append_rtakeWhile
    rcases List.prefix_or_prefix_of_prefix starts ⟨_, whole⟩ with short | ⟨cut, long⟩
    · exact short
    · -- the symbol stands in what was trimmed, or nothing was cut in front of it
      rcases List.eq_nil_or_concat cut with rfl | ⟨front, last, rfl⟩
      · rw [List.append_nil] at long
        exact ⟨[], by rw [List.append_nil, long]⟩
      · rw [List.concat_eq_append, ← List.append_assoc] at long
        obtain ⟨-, same⟩ := List.append_inj' long rfl
        have cutOff : front ++ [last] <+: line.rtakeWhile blank := by
          refine (List.prefix_append_right_inj (trimmed blank line)).mp ?_
          rw [whole, ← List.append_assoc, long]
          exact starts
        have trailing : last ∈ line.rtakeWhile blank := cutOff.subset (by simp)
        rw [List.singleton_inj.mp same] at trailing
        rw [List.mem_rtakeWhile_imp trailing] at inked
        cases inked

/-! The scan. -/

section Scan

variable {room : Nat} {keyword : List Symbol}

theorem trimmed_take_eq_iff (key : Keyword blank stop room keyword) (line : List Symbol) :
    trimmed blank (line.take room) = keyword ↔
      trimmed blank line = keyword ∨ Overrun blank room keyword line := by
  rw [trimmed_eq_iff key.inked, trimmed_eq_iff key.inked]
  constructor
  · rintro ⟨gap, cut, blanks⟩
    have whole : line = keyword ++ (gap ++ line.drop room) := by
      rw [← List.append_assoc, ← cut, List.take_append_drop]
    by_cases rest : ∀ symbol ∈ line.drop room, blank symbol = true
    · refine .inl ⟨_, whole, fun symbol member => ?_⟩
      rcases List.mem_append.mp member with member | member
      · exact blanks symbol member
      · exact rest symbol member
    · push Not at rest
      obtain ⟨symbol, member, inked⟩ := rest
      refine .inr ⟨⟨_, whole.symm⟩, ?_, symbol, member, Bool.not_eq_true _ ▸ inked⟩
      rw [cut, List.drop_left]
      exact blanks
  · rintro (⟨gap, rfl, blanks⟩ | ⟨starts, filled, -⟩)
    · refine ⟨gap.take (room - keyword.length), ?_, fun symbol member =>
        blanks symbol (List.mem_of_mem_take member)⟩
      rw [List.take_append, List.take_of_length_le key.fits.le]
    · obtain ⟨rest, rfl⟩ := starts
      refine ⟨_, ?_, filled⟩
      rw [List.take_append, List.take_of_length_le key.fits.le, List.drop_left]

variable (plain : ∀ symbol, stop symbol = true → blank symbol = false)

include plain

theorem stopped_trimmed_take_iff (key : Keyword blank stop room keyword) (line : List Symbol) :
    Stopped stop keyword (trimmed blank (line.take room)) ↔ Stopped stop keyword line := by
  refine exists_congr fun symbol => and_congr_right fun stops => ?_
  rw [prefix_trimmed_iff (plain symbol stops), List.prefix_take_iff]
  refine and_iff_left ?_
  rw [List.length_append, List.length_singleton]
  exact key.fits

theorem scanned_eq_iff (key : Keyword blank stop room keyword) (line : List Symbol) :
    scanned blank stop room line = keyword ↔
      trimmed blank line = keyword ∨ Overrun blank room keyword line ∨
        Stopped stop keyword line := by
  rw [scanned, takeWhile_eq_iff key.unstopped, trimmed_take_eq_iff key,
    stopped_trimmed_take_iff plain key, or_assoc]

/-- The two kinds of line that are taken for a keyword are not that keyword. -/
theorem trimmed_ne_of_misread (key : Keyword blank stop room keyword) {line : List Symbol}
    (misread : Overrun blank room keyword line ∨ Stopped stop keyword line) :
    trimmed blank line ≠ keyword := by
  rw [Ne, trimmed_eq_iff key.inked]
  rintro ⟨gap, rfl, blanks⟩
  rcases misread with ⟨-, -, symbol, member, inked⟩ | ⟨symbol, stops, starts⟩
  · rw [List.drop_append, List.drop_eq_nil_of_le key.fits.le, List.nil_append] at member
    rw [blanks symbol (List.mem_of_mem_drop member)] at inked
    cases inked
  · rw [List.prefix_append_right_inj] at starts
    have inked := plain symbol stops
    rw [blanks symbol (starts.subset List.mem_cons_self)] at inked
    cases inked

/-- The scan is right about a keyword on exactly the lines of neither kind. -/
theorem scanned_exact_iff (key : Keyword blank stop room keyword) (line : List Symbol) :
    (scanned blank stop room line = keyword ↔ trimmed blank line = keyword) ↔
      ¬(Overrun blank room keyword line ∨ Stopped stop keyword line) := by
  rw [scanned_eq_iff plain key]
  constructor
  · intro exact misread
    exact trimmed_ne_of_misread plain key misread (exact.mp (.inr misread))
  · exact fun right => or_iff_left right

end Scan

end KeywordScan
