import RequestTemplate.Proofs.Delimiter
import RequestTemplate.Template.Span

/-!
# Escaped openers cut text into pieces

Text without a live opener falls into pieces that hold no opener at all, with an
escaped opener between any two of them. Unescaping drops one backslash for each of
these openers and changes nothing else (`exists_pieced_iff`).
-/

namespace RequestTemplate.Delimiter

/-- Text that holds no opener. -/
def Bare (s : List Char) : Prop := ¬ Span.opener <:+: s

/-- The source of literal text, and the text: it falls into bare pieces, with an
    opener between any two of them that one backslash escapes. -/
structure Pieced (pieces : List (List Char)) (source text : List Char) : Prop where
  bare : ∀ piece ∈ pieces, Bare piece
  source_eq : source = ('\\' :: Span.opener).intercalate pieces
  text_eq : text = Span.opener.intercalate pieces

theorem opener_prefix_iff {s : List Char} : Span.opener <+: s ↔ opens s = true := by
  rw [opens_iff]
  exact exists_congr fun rest => eq_comm

theorem bare_cons_iff {c : Char} {s : List Char} : Bare (c :: s) ↔ opens (c :: s) = false ∧ Bare s := by
  rw [Bare, List.infix_cons_iff, opener_prefix_iff, not_or, Bool.not_eq_true, Bare]

theorem intercalate_cons (between piece : List Char) (pieces : List (List Char)) :
    between.intercalate (piece :: pieces) = piece ++ pieces.flatMap (between ++ ·) := by
  induction pieces generalizing piece with
  | nil => simp
  | cons next pieces ih => simp [List.intercalate_cons_cons, ih]

/-- One more character that neither is escaped nor completes an opener. -/
theorem Pieced.copy {pieces : List (List Char)} {s text : List Char} (pieced : Pieced pieces s text)
    (filled : pieces ≠ []) {c : Char} (quiet : opens (c :: s) = false) :
    ∃ others ≠ [], Pieced others (c :: s) (c :: text) := by
  obtain ⟨piece, pieces, rfl⟩ := List.exists_cons_of_ne_nil filled
  obtain ⟨bare, rfl, rfl⟩ := pieced
  obtain ⟨here, later⟩ := List.forall_mem_cons.1 bare
  have apart : Apart (pieces.flatMap (('\\' :: Span.opener) ++ ·)) := by
    cases pieces with
    | nil => exact apart_nil
    | cons next pieces => simp [Apart]
  rw [intercalate_cons, opens_append_of_apart apart] at quiet
  have bare := List.forall_mem_cons.2 ⟨bare_cons_iff.2 ⟨quiet, here⟩, later⟩
  refine ⟨(c :: piece) :: pieces, by simp, bare, ?_, ?_⟩ <;> simp [intercalate_cons]

/-- An escaped opener before text that is cut already. -/
theorem Pieced.escaped {pieces : List (List Char)} {s text : List Char} (pieced : Pieced pieces s text)
    (filled : pieces ≠ []) : Pieced ([] :: pieces) ('\\' :: Span.opener ++ s) (Span.opener ++ text) := by
  obtain ⟨piece, pieces, rfl⟩ := List.exists_cons_of_ne_nil filled
  obtain ⟨bare, rfl, rfl⟩ := pieced
  have empty : Bare [] := by simp [Bare, Span.opener]
  refine ⟨List.forall_mem_cons.2 ⟨empty, bare⟩, ?_, ?_⟩ <;> simp [List.intercalate_cons_cons]

/-! ## Unescaping drops one backslash for each opener -/

/-- The backslash before an opener is dropped: were it escaped itself, the opener would
    be live. -/
theorem unescapeFrom_escaped {odd : Bool} {s : List Char} (quiet : live odd ('\\' :: Span.opener ++ s) = 0) :
    unescapeFrom odd ('\\' :: Span.opener ++ s) = Span.opener ++ unescapeFrom false s ∧ live false s = 0 := by
  obtain ⟨-, later⟩ := openers_cons_eq_zero quiet
  have escapes := odd_of_opens later rfl
  obtain rfl : odd = false := by simpa [oddAfter] using escapes
  refine ⟨?_, ?_⟩
  · simp [unescapeFrom, oddAfter, opens, Span.opener]
  · simpa [live, openers, opens, oddAfter, Span.opener] using quiet

/-- Where no opener is live, and none at the head, each opener is behind a backslash
    that the scan drops. -/
theorem exists_pieced {odd : Bool} {s : List Char} (quiet : live odd s = 0) (head : opens s = false) :
    ∃ pieces ≠ [], Pieced pieces s (unescapeFrom odd s) := by
  induction size : s.length using Nat.strong_induction_on generalizing odd s with
  | _ n ih =>
  cases s with
  | nil => exact ⟨[[]], by simp, by simp [Bare, Span.opener], by simp, by simp [unescapeFrom]⟩
  | cons c s =>
    obtain ⟨-, later⟩ := openers_cons_eq_zero quiet
    rcases unescapeFrom_cons odd c s with ⟨rfl, rfl, opening, -⟩ | ⟨behind, copied⟩
    · obtain ⟨t, rfl⟩ := opens_iff.1 opening
      obtain ⟨shown, quiet⟩ := unescapeFrom_escaped quiet
      obtain ⟨pieces, filled, pieced⟩ := ih t.length (by simp at size; omega) quiet
        (opens_of_live_eq_zero quiet) rfl
      refine ⟨[] :: pieces, by simp, ?_⟩
      rw [show '$' :: '{' :: '[' :: t = Span.opener ++ t from rfl, ← List.cons_append, shown]
      exact pieced.escaped filled
    · have next : opens s = false := Bool.eq_false_iff.2 fun opening => by
        have odd := odd_of_opens later opening
        simp only [oddAfter, Bool.and_eq_true, beq_iff_eq, Bool.not_eq_true'] at odd
        exact absurd (behind odd.1 opening) (by simp [odd.2])
      obtain ⟨pieces, filled, pieced⟩ := ih s.length (by simp at size; omega) later next rfl
      rw [copied]
      exact pieced.copy filled head

theorem unescapeFrom_bare_append (odd : Bool) {piece t : List Char} (bare : Bare piece) (apart : Apart t)
    (literal : opens t = false) :
    unescapeFrom odd (piece ++ t) = piece ++ unescapeFrom (oddBehind odd piece) t := by
  induction piece generalizing odd with
  | nil => rfl
  | cons c piece ih =>
    obtain ⟨-, later⟩ := bare_cons_iff.1 bare
    have next : opens (piece ++ t) = false := by
      cases piece with
      | nil => exact literal
      | cons d piece =>
        rw [List.cons_append, opens_append_of_apart apart]
        exact (bare_cons_iff.1 later).1
    rcases unescapeFrom_cons odd c (piece ++ t) with ⟨-, -, opening, -⟩ | ⟨-, copied⟩
    · exact absurd (next.symm.trans opening) Bool.false_ne_true
    · rw [List.cons_append, copied, ih _ later]
      rfl

theorem unescapeFrom_intercalate {odd : Bool} {pieces : List (List Char)} (bare : ∀ piece ∈ pieces, Bare piece)
    (quiet : live odd (('\\' :: Span.opener).intercalate pieces) = 0) :
    unescapeFrom odd (('\\' :: Span.opener).intercalate pieces) = Span.opener.intercalate pieces := by
  induction pieces generalizing odd with
  | nil => rfl
  | cons piece pieces ih =>
    obtain ⟨here, later⟩ := List.forall_mem_cons.1 bare
    cases pieces with
    | nil =>
      have alone := unescapeFrom_bare_append odd here apart_nil rfl
      simpa [unescapeFrom] using alone
    | cons next pieces =>
      have apart : Apart ('\\' :: Span.opener ++ ('\\' :: Span.opener).intercalate (next :: pieces)) := by
        simp [Apart]
      rw [List.intercalate_cons_cons] at quiet ⊢
      rw [List.append_assoc, live, openers_append apart, Nat.add_eq_zero_iff] at quiet
      obtain ⟨shown, quiet⟩ := unescapeFrom_escaped quiet.2
      rw [List.append_assoc, unescapeFrom_bare_append odd here apart (opens_cons_of_ne (by decide) _), shown,
        ih later quiet, List.intercalate_cons_cons, List.append_assoc]

/-- Literal text is its source without one backslash before each opener. -/
theorem exists_pieced_iff {s text : List Char} (quiet : live false s = 0) :
    (∃ pieces, Pieced pieces s text) ↔ unescapeFrom false s = text := by
  constructor
  · rintro ⟨pieces, bare, rfl, rfl⟩
    exact unescapeFrom_intercalate bare quiet
  · rintro rfl
    obtain ⟨pieces, -, pieced⟩ := exists_pieced quiet (opens_of_live_eq_zero quiet)
    exact ⟨pieces, pieced⟩

end RequestTemplate.Delimiter
