import Mathlib.Data.List.Basic

/-! Streams of self-delimiting records. A format says how one record is laid
out and what a reader finds at the head of a stream; everything about whole
streams (the scan of an arbitrary stream, uniqueness of the parse, what a
malformed tail leaves behind) follows from the laws of a single record. -/

set_option autoImplicit false

namespace Framing

variable {α ρ ε : Type*}

inductive Head (α ρ ε : Type*) where
  | done
  | record (value : ρ) (rest : List α)
  | malformed (error : ε)

/-- A record layout whose reader recovers a record from the stream it heads and
accepts nothing else. -/
structure Format (α ρ ε : Type*) where
  encode : ρ → List α
  head : List α → Head α ρ ε
  head_nil : head [] = .done
  head_encode : ∀ value rest, head (encode value ++ rest) = .record value rest
  eq_nil_of_head : ∀ stream, head stream = .done → stream = []
  eq_encode_of_head : ∀ stream value rest,
    head stream = .record value rest → stream = encode value ++ rest
  encode_ne_nil : ∀ value, encode value ≠ []

namespace Format

variable (format : Format α ρ ε)

def encodeAll (records : List ρ) : List α := records.flatMap format.encode

@[simp] theorem encodeAll_nil : format.encodeAll [] = [] := rfl

@[simp] theorem encodeAll_cons (value : ρ) (records : List ρ) :
    format.encodeAll (value :: records) = format.encode value ++ format.encodeAll records := by
  simp [encodeAll]

@[simp] theorem encodeAll_append (left right : List ρ) :
    format.encodeAll (left ++ right) = format.encodeAll left ++ format.encodeAll right := by
  simp [encodeAll]

theorem length_rest_lt {stream rest : List α} {value : ρ}
    (found : format.head stream = .record value rest) : rest.length < stream.length := by
  have shape := format.eq_encode_of_head stream value rest found
  have nonempty := List.length_pos_of_ne_nil (format.encode_ne_nil value)
  rw [shape, List.length_append]
  omega

private def scanWith : Nat → List α → List ρ × Option ε
  | 0, _ => ([], none)
  | fuel + 1, stream =>
      match format.head stream with
      | .done => ([], none)
      | .malformed error => ([], some error)
      | .record value rest =>
          (value :: (scanWith fuel rest).1, (scanWith fuel rest).2)

/-- All records of a stream up to its end or its first malformed head. -/
def scan (stream : List α) : List ρ × Option ε := format.scanWith (stream.length + 1) stream

private theorem scanWith_adequate {fuel : Nat} {stream : List α} (adequate : stream.length < fuel) :
    format.scanWith fuel stream = format.scan stream := by
  unfold scan
  generalize bound : stream.length + 1 = reserve
  have enough : stream.length < reserve := by omega
  clear bound
  induction fuel generalizing stream reserve with
  | zero => omega
  | succ fuel ih =>
      cases reserve with
      | zero => omega
      | succ reserve =>
          simp only [scanWith]
          cases found : format.head stream with
          | done => rfl
          | malformed error => rfl
          | record value rest =>
              have shorter := format.length_rest_lt found
              have agree : format.scanWith fuel rest = format.scanWith reserve rest :=
                ih (by omega) reserve (by omega)
              simp only [agree]

@[simp] theorem scan_nil : format.scan [] = ([], none) := by
  simp [scan, scanWith, format.head_nil]

theorem scan_record {stream rest : List α} {value : ρ}
    (found : format.head stream = .record value rest) :
    format.scan stream = (value :: (format.scan rest).1, (format.scan rest).2) := by
  have shorter := format.length_rest_lt found
  conv => lhs; unfold scan scanWith
  simp only [found, format.scanWith_adequate shorter]

theorem scan_malformed {stream : List α} {error : ε}
    (found : format.head stream = .malformed error) : format.scan stream = ([], some error) := by
  simp [scan, scanWith, found]

theorem scan_done {stream : List α} (found : format.head stream = .done) :
    format.scan stream = ([], none) := by
  rw [format.eq_nil_of_head stream found, scan_nil]

@[elab_as_elim]
theorem stream_induction {motive : List α → Prop}
    (nil : motive [])
    (malformed : ∀ stream error, format.head stream = .malformed error → motive stream)
    (record : ∀ stream value rest,
      format.head stream = .record value rest → motive rest → motive stream)
    (stream : List α) : motive stream := by
  generalize size : stream.length = n
  induction n using Nat.strongRecOn generalizing stream with
  | ind n ih =>
      cases found : format.head stream with
      | done => exact format.eq_nil_of_head stream found ▸ nil
      | malformed error => exact malformed stream error found
      | record value rest =>
          have shorter := format.length_rest_lt found
          exact record stream value rest found (ih rest.length (by omega) rest rfl)

theorem scan_encodeAll_append (records : List ρ) (tail : List α) :
    format.scan (format.encodeAll records ++ tail) =
      (records ++ (format.scan tail).1, (format.scan tail).2) := by
  induction records with
  | nil => simp
  | cons value records ih =>
      have found : format.head (format.encodeAll (value :: records) ++ tail) =
          .record value (format.encodeAll records ++ tail) := by
        rw [encodeAll_cons, List.append_assoc, format.head_encode]
      rw [format.scan_record found, ih, List.cons_append]

theorem scan_encodeAll (records : List ρ) :
    format.scan (format.encodeAll records) = (records, none) := by
  simpa using format.scan_encodeAll_append records []

/-- A stream is the encoding of the records scanned from it, followed by a tail
that is empty unless the scan met a malformed head. -/
theorem scan_sound (stream : List α) :
    ∃ tail, stream = format.encodeAll (format.scan stream).1 ++ tail ∧
      match (format.scan stream).2 with
      | none => tail = []
      | some error => format.head tail = .malformed error := by
  induction stream using format.stream_induction with
  | nil => exact ⟨[], by simp⟩
  | malformed stream error found =>
      exact ⟨stream, by simp [format.scan_malformed found, found]⟩
  | record stream value rest found ih =>
      obtain ⟨tail, shape, ending⟩ := ih
      refine ⟨tail, ?_, ?_⟩
      · conv => lhs; rw [format.eq_encode_of_head stream value rest found, shape]
        rw [format.scan_record found, encodeAll_cons, List.append_assoc]
      · simpa only [format.scan_record found] using ending

theorem encodeAll_scan {stream : List α} (clean : (format.scan stream).2 = none) :
    format.encodeAll (format.scan stream).1 = stream := by
  obtain ⟨tail, shape, ending⟩ := format.scan_sound stream
  simp only [clean] at ending
  rw [ending, List.append_nil] at shape
  exact shape.symm

theorem encodeAll_injective : Function.Injective format.encodeAll := by
  intro left right same
  have scanned := congrArg format.scan same
  simpa only [scan_encodeAll, Prod.mk.injEq, and_true] using scanned

end Format

end Framing
