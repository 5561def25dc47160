import RequestTemplate.Proofs.Place
import RequestTemplate.Text.Blank

/-!
# Blanks in a source

What blanks do to the text around them. No opener reaches across them, and behind
them no backslash hides one (`live_blank_append`). Inside a tag they are read as
they stand, and outside tags not at all (`trace_of_blank`).
-/

namespace RequestTemplate
open Delimiter
open Text (isBlank)

theorem ne_of_isBlank {c d : Char} (blank : isBlank c = true) (visible : isBlank d = false) : c ≠ d := by
  rintro rfl
  simp [blank] at visible

def Blank (s : List Char) : Prop := ∀ c ∈ s, isBlank c = true

/-- Text that no opener reaches out of, and behind which no backslash stands. -/
def Delimiter.sealed (s : List Char) : Bool := s.getLast? == some '>' || s.getLast? == some '}'

/-! ## Blanks and openers -/

namespace Delimiter

theorem exists_of_sealed {s : List Char} (ends : sealed s = true) :
    ∃ front c, s = front ++ [c] ∧ (c = '>' ∨ c = '}') := by
  simp only [sealed, Bool.or_eq_true, beq_iff_eq, List.getLast?_eq_some_iff] at ends
  rcases ends with ⟨front, rfl⟩ | ⟨front, rfl⟩
  · exact ⟨front, '>', rfl, .inl rfl⟩
  · exact ⟨front, '}', rfl, .inr rfl⟩

theorem oddBehind_of_sealed {s : List Char} (ends : sealed s = true) (odd : Bool) :
    oddBehind odd s = false := by
  obtain ⟨front, c, rfl, rfl | rfl⟩ := exists_of_sealed ends <;>
    exact oddBehind_concat_of_ne (by decide) odd front

theorem openers_append_of_sealed {s : List Char} (ends : sealed s = true) (parity odd : Bool)
    (t : List Char) :
    openers parity odd (s ++ t) = openers parity odd s + openers parity (oddBehind odd s) t := by
  obtain ⟨front, c, rfl, last⟩ := exists_of_sealed ends
  have reach (d : Char) (s : List Char) : opens (d :: (s ++ c :: t)) = opens (d :: (s ++ [c])) := by
    match s with
    | [] => rcases last with rfl | rfl <;> simp [opens]
    | [_] => rcases last with rfl | rfl <;> simp [opens]
    | _ :: _ :: _ => rw [Bool.eq_iff_iff, opens_iff, opens_iff]; simp
  clear ends
  induction front generalizing odd with
  | nil => rcases last with rfl | rfl <;> simp [openers, opens]
  | cons d front ih =>
    have later := ih (oddAfter odd d)
    simp only [List.append_assoc, List.cons_append, List.nil_append, openers, reach,
      oddBehind_cons] at later ⊢
    omega

theorem oddBehind_of_blank {s : List Char} (blank : Blank s) (odd : Bool) :
    oddBehind odd s = (odd && s.isEmpty) := by
  induction s generalizing odd with
  | nil => simp
  | cons c s ih =>
    have plain : c ≠ '\\' := ne_of_isBlank (blank c (by simp)) (by decide)
    rw [oddBehind_cons, oddAfter_of_ne plain, ih fun d member => blank d (by simp [member])]
    simp

theorem live_blank_append {s : List Char} (blank : Blank s) (odd : Bool) (t : List Char) :
    live odd (s ++ t) = live (oddBehind odd s) t := by
  induction s generalizing odd with
  | nil => rfl
  | cons c s ih =>
    have other : c ≠ '$' := ne_of_isBlank (blank c (by simp)) (by decide)
    rw [List.cons_append, live, openers, opens_cons_of_ne other, oddBehind_cons,
      ← ih fun d member => blank d (by simp [member])]
    simp [live]

end Delimiter

/-! ## Blanks and places -/

namespace Place

/-- The place behind a blank. -/
def rested : Place → Place
  | text _ | dollar | brace => text false
  | tag (.skipping quote) => tag (.within quote)
  | tag state => tag state
  | bracket => tag .bare

/-- What holds of a place behind a run of backslashes of this parity. -/
def Tracks (odd : Bool) : Place → Prop
  | text behind => behind = odd
  | dollar | brace | bracket => odd = false
  | tag .bare => True
  | tag (.within quote) | tag (.skipping quote) => Tag.isQuote quote = true

theorem tracks_literal (odd : Bool) (c : Char) : (literal odd c).Tracks (oddAfter odd c) := by
  unfold literal
  split
  · rename_i live
    simp [Tracks, live.1, oddAfter]
  · rfl

theorem tracks_inner {state : Span.Quoting} {odd : Bool} (tracks : (tag state).Tracks odd) (c : Char) :
    (inner state c).Tracks (oddAfter odd c) := by
  unfold inner
  split
  · rename_i closing
    simp [Tracks, closing.2, oddAfter]
  · cases state with
    | bare =>
      simp only [Span.Quoting.step]
      split
      · assumption
      · trivial
    | within quote =>
      simp only [Span.Quoting.step]
      split
      · exact tracks
      · split
        · trivial
        · exact tracks
    | skipping quote => exact tracks

theorem tracks_step {place : Place} {odd : Bool} (tracks : place.Tracks odd) (c : Char) :
    (place.step c).Tracks (oddAfter odd c) := by
  cases place with
  | text behind =>
    obtain rfl : behind = odd := tracks
    exact tracks_literal behind c
  | dollar =>
    obtain rfl : odd = false := tracks
    simp only [step]
    split
    · rename_i next
      simp [Tracks, next, oddAfter]
    · exact tracks_literal false c
  | brace =>
    obtain rfl : odd = false := tracks
    simp only [step]
    split
    · trivial
    · exact tracks_literal false c
  | tag state => exact tracks_inner tracks c
  | bracket =>
    simp only [step]
    split
    · rename_i closing
      simp [Tracks, closing, oddAfter]
    · exact @tracks_inner .bare odd trivial c

theorem tracks_after {place : Place} {odd : Bool} (tracks : place.Tracks odd) (s : List Char) :
    (place.after s).Tracks (oddBehind odd s) := by
  induction s generalizing place odd with
  | nil => exact tracks
  | cons c s ih => exact ih (tracks_step tracks c)

theorem step_of_isBlank {place : Place} {odd : Bool} (tracks : place.Tracks odd) {c : Char}
    (blank : isBlank c = true) : place.step c = place.rested := by
  have other (d : Char) (visible : isBlank d = false) : c ≠ d := ne_of_isBlank blank visible
  have quote : Tag.isQuote c = false := by
    simp [Tag.isQuote, other '"' (by decide), other '\'' (by decide)]
  have text (odd : Bool) : literal odd c = .text false := by
    simp [literal, other '$' (by decide), oddAfter_of_ne (other '\\' (by decide))]
  cases place with
  | text behind => exact text behind
  | dollar => simp [step, rested, text, other '{' (by decide)]
  | brace => simp [step, rested, text, other '[' (by decide)]
  | bracket =>
    simp [step, rested, inner, Span.Quoting.step, quote, other '}' (by decide), other ']' (by decide)]
  | tag state =>
    cases state with
    | bare => simp [step, rested, inner, Span.Quoting.step, quote, other ']' (by decide)]
    | skipping q => simp [step, rested, inner, Span.Quoting.step]
    | within q =>
      have unquoted : c ≠ q := by
        rintro rfl
        exact absurd (quote.symm.trans tracks) (by decide)
      simp [step, rested, inner, Span.Quoting.step, other '\\' (by decide), unquoted]

theorem rested_rested (place : Place) : place.rested.rested = place.rested := by
  rcases place with _ | _ | _ | (_ | _ | _) | _ <;> rfl

theorem inside_rested (place : Place) : place.rested.inside = place.inside := by
  rcases place with _ | _ | _ | (_ | _ | _) | _ <;> rfl

theorem after_of_blank {place : Place} {odd : Bool} (tracks : place.Tracks odd) {s : List Char}
    (blank : Blank s) : place.after s = if s = [] then place else place.rested := by
  induction s generalizing place odd with
  | nil => rfl
  | cons c s ih =>
    have later := ih (tracks_step tracks c) fun d member => blank d (by simp [member])
    rw [after_cons, later, step_of_isBlank tracks (blank c (by simp)), rested_rested]
    simp

theorem inside_after_of_blank {place : Place} {odd : Bool} (tracks : place.Tracks odd) {s : List Char}
    (blank : Blank s) : (place.after s).inside = place.inside := by
  rw [after_of_blank tracks blank]
  split
  · rfl
  · exact inside_rested place

theorem trace_of_blank {place : Place} {odd : Bool} (tracks : place.Tracks odd) {s : List Char}
    (blank : Blank s) : place.trace s = if place.inside then s.map some else [] := by
  induction s generalizing place odd with
  | nil => simp
  | cons c s ih =>
    have visible : c ≠ '}' := ne_of_isBlank (blank c (by simp)) (by decide)
    have here := step_of_isBlank tracks (blank c (by simp))
    have later := ih (tracks_step tracks c) fun d member => blank d (by simp [member])
    rw [trace, later, here, inside_rested]
    cases place.inside <;> simp [mark, visible]

/-- Behind text that seals itself off a blank changes nothing. -/
theorem rested_after_of_sealed (place : Place) {s : List Char} (ends : sealed s = true) :
    (place.after s).rested = place.after s := by
  obtain ⟨front, c, rfl, last⟩ := exists_of_sealed ends
  rw [after_append, after_cons, after_nil]
  have plain : c ≠ '\\' ∧ c ≠ '$' ∧ c ≠ '{' ∧ c ≠ '[' ∧ c ≠ ']' ∧ Tag.isQuote c = false := by
    rcases last with rfl | rfl <;> decide
  obtain ⟨slash, dollar, brace, opening, closing, quote⟩ := plain
  have text (odd : Bool) : literal odd c = .text false := by
    simp [literal, dollar, oddAfter_of_ne slash]
  have bare : inner .bare c = .tag .bare := by simp [inner, Span.Quoting.step, closing, quote]
  rcases place.after front with odd | _ | _ | (_ | q | q) | _
  · rw [step, text, rested]
  · rw [step, if_neg brace, text, rested]
  · rw [step, if_neg opening, text, rested]
  · rw [step, bare]
    rfl
  · by_cases same : c = q
    · subst same
      simp [step, inner, Span.Quoting.step, slash, rested]
    · simp [step, inner, Span.Quoting.step, slash, same, rested]
  · rfl
  · by_cases closes : c = '}'
    · rw [step, if_pos closes, rested]
    · rw [step, if_neg closes, bare]
      rfl

/-- Neither an angle bracket nor an opener that stays hidden minds the blanks before it. -/
theorem step_rested {place : Place} {odd : Bool} (tracks : place.Tracks odd) {c : Char}
    (head : c = '<' ∨ (c = '$' ∧ odd = false)) : place.rested.step c = place.step c := by
  rcases place with behind | _ | _ | (_ | q | q) | _
  · obtain rfl : behind = odd := tracks
    rcases head with rfl | ⟨rfl, rfl⟩ <;> rfl
  · rcases head with rfl | ⟨rfl, -⟩ <;> rfl
  · rcases head with rfl | ⟨rfl, -⟩ <;> rfl
  · rfl
  · rfl
  · have unquoted : c ≠ q := by
      rintro rfl
      rcases head with rfl | ⟨rfl, -⟩ <;> simp [Tracks, Tag.isQuote] at tracks
    have slash : c ≠ '\\' := by rcases head with rfl | ⟨rfl, -⟩ <;> decide
    simp [rested, step, inner, Span.Quoting.step, slash, unquoted]
  · rcases head with rfl | ⟨rfl, -⟩ <;> rfl

/-- A place behind a run of backslashes of this parity, where blanks change nothing
    if what stands before it is sealed. -/
structure Stands (behind odd : Bool) (place : Place) : Prop where
  tracks : place.Tracks odd
  rests : behind = true → place.rested = place

theorem Stands.after {behind odd : Bool} {place : Place} (stands : place.Stands behind odd)
    (s t : List Char) : (place.after (s ++ t)).Stands (sealed t) (oddBehind odd (s ++ t)) where
  tracks := tracks_after stands.tracks (s ++ t)
  rests := by
    intro ends
    rw [after_append, rested_after_of_sealed _ ends]

/-- What is read of blanks, of the character that ends them, and of the text behind it. -/
theorem trace_blank_append {place : Place} {odd : Bool} (tracks : place.Tracks odd) {blanks : List Char}
    (blank : Blank blanks) (c : Char) (s t : List Char) :
    place.trace (blanks ++ c :: s ++ t) =
      (if place.inside then blanks.map some ++ [(place.after blanks).mark c] else []) ++
        (((place.after blanks).step c).trace s ++ (((place.after blanks).step c).after s).trace t) := by
  rw [List.append_assoc, trace_append, trace_of_blank tracks blank, List.cons_append, trace,
    inside_after_of_blank tracks blank, trace_append]
  cases place.inside <;> simp

theorem mark_notMem (place : Place) {c : Char} (visible : isBlank c = false) {blanks : List Char}
    (blank : Blank blanks) : place.mark c ∉ blanks.map some := by
  rw [mark]
  split
  · simp
  · simpa using fun member => absurd ((blank c member).symm.trans visible) (by decide)

end Place

end RequestTemplate
