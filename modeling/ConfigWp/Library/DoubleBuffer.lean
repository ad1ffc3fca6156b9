import Mathlib.Data.List.Basic
import Mathlib.Logic.Function.Basic
import Mathlib.Order.Lattice

/-! Two-copy storage with ordered stamps. A reader takes the newest copy whose
content checks out; a writer looks at the stamps alone and overwrites the copy
whose stamp is not the newest. The two judge the copies by different tests, and
the laws below say when they agree, what a completed overwrite makes readable
and which damage a pair survives. -/

set_option autoImplicit false

namespace DoubleBuffer

inductive Side where
  | a
  | b
  deriving DecidableEq, Repr

namespace Side

def other : Side → Side
  | .a => .b
  | .b => .a

@[simp] theorem other_other (side : Side) : side.other.other = side := by cases side <;> rfl

@[simp] theorem other_ne (side : Side) : side.other ≠ side := by cases side <;> decide

@[simp] theorem ne_other (side : Side) : side ≠ side.other := by cases side <;> decide

theorem eq_or_eq_other (left right : Side) : left = right ∨ left = right.other := by
  cases left <;> cases right <;> simp [other]

end Side

variable {S P : Type*}

/-- One copy as the two tests see it: no readable stamp, a stamp over content
that does not check out, or a stamp over content that does. -/
inductive Copy (S P : Type*) where
  | blank
  | stale (stamp : S)
  | valid (stamp : S) (content : P)

namespace Copy

def stamp? : Copy S P → Option S
  | .blank => none
  | .stale stamp => some stamp
  | .valid stamp _ => some stamp

def content? : Copy S P → Option P
  | .valid _ content => some content
  | _ => none

@[simp] theorem stamp?_blank : (Copy.blank : Copy S P).stamp? = none := rfl
@[simp] theorem stamp?_stale (stamp : S) : (Copy.stale stamp : Copy S P).stamp? = some stamp := rfl
@[simp] theorem stamp?_valid (stamp : S) (content : P) :
    (Copy.valid stamp content).stamp? = some stamp := rfl
@[simp] theorem content?_blank : (Copy.blank : Copy S P).content? = none := rfl
@[simp] theorem content?_stale (stamp : S) : (Copy.stale stamp : Copy S P).content? = none := rfl
@[simp] theorem content?_valid (stamp : S) (content : P) :
    (Copy.valid stamp content).content? = some content := rfl

end Copy

abbrev Pair (S P : Type*) := Side → Copy S P

variable [LinearOrder S]

/-- The side a reader takes: the valid copy, the one with the newer stamp when
both are valid, side `a` on a tie. -/
def newest (pair : Pair S P) : Option Side :=
  match pair .a, pair .b with
  | .valid left _, .valid right _ => if right ≤ left then some .a else some .b
  | .valid _ _, _ => some .a
  | _, .valid _ _ => some .b
  | _, _ => none

def read (pair : Pair S P) : Option P := (newest pair).bind fun side => (pair side).content?

/-- The side a writer overwrites and the stamp it gives, from the stamps alone. -/
def target (next : S → S) (first : S) (pair : Pair S P) : Side × S :=
  match (pair .a).stamp?, (pair .b).stamp? with
  | some left, some right => if right ≤ left then (.b, next left) else (.a, next right)
  | some left, none => (.b, next left)
  | none, some right => (.a, next right)
  | none, none => (.a, first)

def commit (next : S → S) (first : S) (pair : Pair S P) (content : P) : Pair S P :=
  Function.update pair (target next first pair).1 (.valid (target next first pair).2 content)

def Outranked (pair : Pair S P) (side : Side) : Prop :=
  match side, (pair .a).stamp?, (pair .b).stamp? with
  | .a, some left, some right => left < right
  | .b, some left, some right => right ≤ left
  | .a, none, some _ => True
  | .b, some _, none => True
  | _, _, _ => False

variable (next : S → S) (first : S)

/-- The reader takes `side` exactly when its copy is valid and, if the other one
is valid too, the stamps do not rank that one above it. -/
theorem newest_eq_some_iff {pair : Pair S P} {side : Side} :
    newest pair = some side ↔
      (∃ stamp content, pair side = .valid stamp content) ∧
        ((∃ stamp content, pair side.other = .valid stamp content) → ¬Outranked pair side) := by
  cases atA : pair .a <;> cases atB : pair .b <;> cases side <;>
    simp [newest, Outranked, Side.other, atA, atB]

theorem newest_valid {pair : Pair S P} {side : Side} (found : newest pair = some side) :
    ∃ stamp content, pair side = .valid stamp content :=
  (newest_eq_some_iff.mp found).1

theorem read_of_newest {pair : Pair S P} {side : Side} {stamp : S} {content : P}
    (found : newest pair = some side) (copy : pair side = .valid stamp content) :
    read pair = some content := by
  simp [read, found, copy]

theorem newest_of_read {pair : Pair S P} {content : P} (found : read pair = some content) :
    ∃ side stamp, newest pair = some side ∧ pair side = .valid stamp content := by
  cases chosen : newest pair with
  | none => simp [read, chosen] at found
  | some side =>
      obtain ⟨stamp, held, copy⟩ := newest_valid chosen
      have same := read_of_newest chosen copy
      rw [found] at same
      cases same
      exact ⟨side, stamp, rfl, copy⟩

theorem newest_eq_none_iff {pair : Pair S P} :
    newest pair = none ↔ ∀ side, (pair side).content? = none := by
  constructor
  · intro absent side
    cases atA : pair .a <;> cases atB : pair .b <;> cases side <;>
      simp_all [newest] <;> split at absent <;> simp_all
  · intro invalid
    have atA := invalid .a
    have atB := invalid .b
    cases copyA : pair .a <;> cases copyB : pair .b <;> simp_all [newest]

theorem newest_isSome_of_valid {pair : Pair S P} {side : Side} {stamp : S} {content : P}
    (copy : pair side = .valid stamp content) : ∃ winner, newest pair = some winner := by
  cases chosen : newest pair with
  | none =>
      have absent := newest_eq_none_iff.mp chosen side
      simp [copy] at absent
  | some winner => exact ⟨winner, rfl⟩

theorem outranked_iff_of_stamps {pair : Pair S P} {left right : S}
    (stampA : (pair .a).stamp? = some left) (stampB : (pair .b).stamp? = some right)
    (side : Side) :
    Outranked pair side ↔
      match side with
      | .a => left < right
      | .b => right ≤ left := by
  cases side <;> simp [Outranked, stampA, stampB]

theorem outranked_of_not {pair : Pair S P} {side : Side} {left right : S}
    (stamp : (pair side).stamp? = some left) (stampOther : (pair side.other).stamp? = some right)
    (kept : ¬Outranked pair side.other) : Outranked pair side := by
  cases side with
  | a =>
      simp only [Side.other, Outranked] at stampOther kept ⊢
      rw [stamp, stampOther] at kept ⊢
      exact not_le.mp kept
  | b =>
      simp only [Side.other, Outranked] at stampOther kept ⊢
      rw [stamp, stampOther] at kept ⊢
      exact not_lt.mp kept

/-- A valid copy is what a reader finds, unless the other copy is valid, ranked
above it and different. -/
theorem read_eq_some_iff {pair : Pair S P} {side : Side} {stamp : S} {content : P}
    (copy : pair side = .valid stamp content) :
    read pair = some content ↔
      ∀ other held, pair side.other = .valid other held → Outranked pair side →
        held = content := by
  obtain ⟨winner, chosen⟩ := newest_isSome_of_valid copy
  obtain ⟨⟨newer, theirs, taken⟩, kept⟩ := newest_eq_some_iff.mp chosen
  rcases Side.eq_or_eq_other winner side with rfl | rfl
  · constructor
    · intro _ other held valid outranked
      exact absurd outranked (kept ⟨other, held, valid⟩)
    · intro _
      exact read_of_newest chosen copy
  · rw [Side.other_other] at kept
    have outranked : Outranked pair side :=
      outranked_of_not (by rw [copy, Copy.stamp?_valid]) (by rw [taken, Copy.stamp?_valid])
        (kept ⟨stamp, content, copy⟩)
    rw [read_of_newest chosen taken, Option.some.injEq]
    constructor
    · rintro rfl other held valid _
      rw [taken] at valid
      exact (Copy.valid.inj valid).2.symm
    · intro all
      exact all newer theirs taken outranked

/-- The writer spares a valid copy unless the stamps rank the other above it. -/
theorem target_eq_other_iff {pair : Pair S P} {side : Side} {stamp : S} {content : P}
    (copy : pair side = .valid stamp content) :
    (target next first pair).1 = side.other ↔ ¬Outranked pair side := by
  have stamped : (pair side).stamp? = some stamp := by rw [copy, Copy.stamp?_valid]
  cases side with
  | a =>
      cases right : (pair .b).stamp? with
      | none => simp [target, Outranked, stamped, right, Side.other]
      | some later =>
          by_cases newer : later ≤ stamp
          · simp [target, Outranked, stamped, right, newer, Side.other]
          · simp [target, Outranked, stamped, right, newer, Side.other, not_le.mp newer]
  | b =>
      cases left : (pair .a).stamp? with
      | none => simp [target, Outranked, stamped, left, Side.other]
      | some earlier =>
          by_cases newer : stamp ≤ earlier
          · simp [target, Outranked, stamped, left, newer, Side.other]
          · simp [target, Outranked, stamped, left, newer, Side.other]

/-- The side the writer spares is the reader's side whenever its copy is valid. -/
theorem newest_eq_spared {pair : Pair S P} {stamp : S} {content : P}
    (copy : pair (target next first pair).1.other = .valid stamp content) :
    newest pair = some (target next first pair).1.other := by
  refine newest_eq_some_iff.mpr ⟨⟨stamp, content, copy⟩, fun _ => ?_⟩
  exact (target_eq_other_iff next first copy).mp (Side.other_other _).symm

theorem target_congr {left right : Pair S P}
    (stamps : ∀ side, (left side).stamp? = (right side).stamp?) :
    target next first left = target next first right := by
  simp only [target, stamps]

@[simp] theorem commit_target (pair : Pair S P) (content : P) :
    commit next first pair content (target next first pair).1 =
      .valid (target next first pair).2 content := by
  simp [commit]

@[simp] theorem commit_spared (pair : Pair S P) (content : P) :
    commit next first pair content (target next first pair).1.other =
      pair (target next first pair).1.other := by
  simp [commit]

/-- Whatever the stamps, an overwrite leaves either the new content or the old
reading: it never makes some third content readable. -/
theorem read_commit_or (pair : Pair S P) (content : P) :
    read (commit next first pair content) = some content ∨
      read (commit next first pair content) = read pair := by
  obtain ⟨winner, chosen⟩ := newest_isSome_of_valid (commit_target next first pair content)
  rcases Side.eq_or_eq_other winner (target next first pair).1 with rfl | rfl
  · exact .inl (read_of_newest chosen (commit_target next first pair content))
  · obtain ⟨stamp, held, copy⟩ := newest_valid chosen
    refine .inr ((read_of_newest chosen copy).trans ?_)
    rw [commit_spared] at copy
    exact (read_of_newest (newest_eq_spared next first copy) copy).symm

/-- No readable stamp is at the end of its range, where the next one wraps. -/
def Unwrapped (pair : Pair S P) : Prop :=
  ∀ side stamp, (pair side).stamp? = some stamp → stamp < next stamp

/-- The copy the next write spares is valid and holds `content`. -/
def Settled (pair : Pair S P) (content : P) : Prop :=
  ∃ stamp, pair (target next first pair).1.other = .valid stamp content

theorem Settled.read {pair : Pair S P} {content : P} (settled : Settled next first pair content) :
    DoubleBuffer.read pair = some content := by
  obtain ⟨stamp, copy⟩ := settled
  exact read_of_newest (newest_eq_spared next first copy) copy

private theorem not_outranked_commit {pair : Pair S P} (unwrapped : Unwrapped next pair)
    (content : P) :
    ¬Outranked (commit next first pair content) (target next first pair).1 := by
  -- The new stamp follows the newest old one, so the spared copy ranks below it.
  cases atA : (pair .a).stamp? with
  | none =>
      cases atB : (pair .b).stamp? with
      | none => simp [target, commit, Outranked, atA, atB]
      | some right =>
          have bumped := unwrapped .b right atB
          simp [target, commit, Outranked, atA, atB, bumped.le]
  | some left =>
      cases atB : (pair .b).stamp? with
      | none =>
          have bumped := unwrapped .a left atA
          simp [target, commit, Outranked, atA, atB, bumped]
      | some right =>
          by_cases newer : right ≤ left
          · have bumped := unwrapped .a left atA
            simp [target, commit, Outranked, atA, atB, newer, bumped]
          · have bumped := unwrapped .b right atB
            simp [target, commit, Outranked, atA, atB, newer, bumped.le]

theorem settled_commit {pair : Pair S P} (unwrapped : Unwrapped next pair) (content : P) :
    Settled next first (commit next first pair content) content := by
  have copy := commit_target next first pair content
  have spared := (target_eq_other_iff next first copy).mpr
    (not_outranked_commit next first unwrapped content)
  refine ⟨(target next first pair).2, ?_⟩
  rw [spared, Side.other_other, copy]

/-- Damage to the content of the copy being overwritten, stamp untouched, leaves
the pair settled. -/
theorem Settled.damaged {pair : Pair S P} {content : P} (settled : Settled next first pair content)
    {torn : Copy S P} (stamp : torn.stamp? = (pair (target next first pair).1).stamp?) :
    Settled next first (Function.update pair (target next first pair).1 torn) content := by
  have same : target next first (Function.update pair (target next first pair).1 torn) =
      target next first pair := by
    apply target_congr
    intro side
    rcases Side.eq_or_eq_other side (target next first pair).1 with rfl | rfl <;> simp [stamp]
  obtain ⟨held, copy⟩ := settled
  exact ⟨held, by rw [same]; simpa using copy⟩

/-- The stamps after an overwrite are old ones, the first one, or the successor
of an old one. -/
theorem stamp_commit {pair : Pair S P} {content : P} {side : Side} {stamp : S}
    (found : (commit next first pair content side).stamp? = some stamp) :
    (pair side).stamp? = some stamp ∨ stamp = first ∨
      ∃ source old, (pair source).stamp? = some old ∧ stamp = next old := by
  rcases Side.eq_or_eq_other side (target next first pair).1 with rfl | rfl
  · rw [commit_target, Copy.stamp?_valid, Option.some.injEq] at found
    subst stamp
    right
    unfold target
    cases atA : (pair .a).stamp? with
    | none =>
        cases atB : (pair .b).stamp? with
        | none => exact .inl rfl
        | some right => exact .inr ⟨.b, right, atB, rfl⟩
    | some left =>
        cases atB : (pair .b).stamp? with
        | none => exact .inr ⟨.a, left, atA, rfl⟩
        | some right =>
            by_cases newer : right ≤ left
            · exact .inr ⟨.a, left, atA, by simp [newer]⟩
            · exact .inr ⟨.b, right, atB, by simp [newer]⟩
  · rw [commit_spared] at found
    exact .inl found

/-! The copy in front. It stays in front as long as the stamps grow, and for good once
the next stamp would wrap. -/

/-- A valid copy whose stamp the other one does not reach. -/
structure Front (pair : Pair S P) (side : Side) (stamp : S) (content : P) : Prop where
  copy : pair side = .valid stamp content
  ahead : ∀ other, (pair side.other).stamp? = some other → other < stamp

section Front

variable {next first} {pair : Pair S P} {side : Side} {stamp : S} {content : P}

theorem Front.not_outranked (front : Front pair side stamp content) : ¬Outranked pair side := by
  obtain ⟨copy, ahead⟩ := front
  have stamped : (pair side).stamp? = some stamp := by rw [copy, Copy.stamp?_valid]
  intro outranked
  cases side with
  | a =>
      simp only [Outranked, stamped] at outranked
      cases right : (pair .b).stamp? with
      | none => simp [right] at outranked
      | some other => exact lt_asymm (ahead other right) (by simpa [right] using outranked)
  | b =>
      simp only [Outranked, stamped] at outranked
      cases left : (pair .a).stamp? with
      | none => simp [left] at outranked
      | some other => exact (ahead other left).not_ge (by simpa [left] using outranked)

theorem Front.newest (front : Front pair side stamp content) :
    DoubleBuffer.newest pair = some side :=
  newest_eq_some_iff.mpr ⟨⟨stamp, content, front.copy⟩, fun _ => front.not_outranked⟩

theorem Front.read (front : Front pair side stamp content) :
    DoubleBuffer.read pair = some content :=
  read_of_newest front.newest front.copy

/-- The writer overwrites the other copy and counts on from the front stamp. -/
theorem Front.target (front : Front pair side stamp content) :
    DoubleBuffer.target next first pair = (side.other, next stamp) := by
  have spared := (target_eq_other_iff next first front.copy).mpr front.not_outranked
  refine Prod.ext spared ?_
  obtain ⟨copy, ahead⟩ := front
  have stamped : (pair side).stamp? = some stamp := by rw [copy, Copy.stamp?_valid]
  cases side with
  | a =>
      cases right : (pair .b).stamp? with
      | none => simp [DoubleBuffer.target, stamped, right]
      | some other => simp [DoubleBuffer.target, stamped, right, (ahead other right).le]
  | b =>
      cases left : (pair .a).stamp? with
      | none => simp [DoubleBuffer.target, stamped, left]
      | some other => simp [DoubleBuffer.target, stamped, left, (ahead other left).not_ge]

theorem Front.commit (front : Front pair side stamp content) (grows : stamp < next stamp)
    (later : P) :
    Front (DoubleBuffer.commit next first pair later) side.other (next stamp) later := by
  rw [DoubleBuffer.commit, front.target]
  refine ⟨Function.update_self _ _ _, fun other stamped => ?_⟩
  rw [Side.other_other, Function.update_of_ne (Side.ne_other side), front.copy,
    Copy.stamp?_valid] at stamped
  obtain rfl := Option.some.inj stamped
  exact grows

/-- A stamp that wraps leaves the old copy in front. -/
theorem Front.stuck (front : Front pair side stamp content) (wraps : next stamp < stamp)
    (later : P) : Front (DoubleBuffer.commit next first pair later) side stamp content := by
  rw [DoubleBuffer.commit, front.target]
  refine ⟨?_, fun other stamped => ?_⟩
  · rw [Function.update_of_ne (Side.ne_other side), front.copy]
  · rw [Function.update_self, Copy.stamp?_valid] at stamped
    obtain rfl := Option.some.inj stamped
    exact wraps

theorem Front.damaged (front : Front pair side stamp content) {torn : Copy S P}
    (kept : torn.stamp? = (pair side.other).stamp?) :
    Front (Function.update pair side.other torn) side stamp content := by
  refine ⟨?_, fun other stamped => ?_⟩
  · rw [Function.update_of_ne (Side.ne_other side), front.copy]
  · rw [Function.update_self, kept] at stamped
    exact front.ahead other stamped

end Front

/-- Over two copies without a stamp the first one is written. -/
theorem front_first {pair : Pair S P} (blank : ∀ side, (pair side).stamp? = none) (content : P) :
    Front (commit next first pair content) .a first content := by
  have chosen : target next first pair = (.a, first) := by simp [target, blank]
  rw [commit, chosen]
  refine ⟨Function.update_self _ _ _, fun other stamped => ?_⟩
  rw [Function.update_of_ne (Side.other_ne _), blank] at stamped
  cases stamped

/-- What is left to read when one of two valid copies is found broken. -/
theorem newest_sole {pair : Pair S P} {side : Side} {stamp : S} {content : P}
    (copy : pair side = .valid stamp content) (broken : (pair side.other).content? = none) :
    newest pair = some side := by
  refine newest_eq_some_iff.mpr ⟨⟨stamp, content, copy⟩, fun ⟨other, held, valid⟩ => ?_⟩
  rw [valid] at broken
  cases broken

end DoubleBuffer
