import Mathlib
import RequestTemplate.Delimiter

/-!
# Escaping and its inverse

Whether an opener is live depends on the parity of the run of backslashes before
it. `openers` counts the openers behind runs of one parity. Escaping absorbs
unescaping and the other way round (`escapeFrom_absorbs`, `unescapeFrom_absorbs`).
So escaping undoes unescaping on text without a live opener
(`escapeFrom_unescapeFrom`), and unescaping undoes escaping on text in which every
opener is live (`unescapeFrom_escapeFrom`).
-/

namespace RequestTemplate.Delimiter

/-- How many openers stand behind a run of backslashes of this parity. -/
def openers (parity : Bool) (odd : Bool) : List Char → Nat
  | [] => 0
  | c :: rest =>
    (if opens (c :: rest) && odd == parity then 1 else 0) + openers parity (oddAfter odd c) rest

/-- The openers that begin a tag. -/
def live (odd : Bool) (s : List Char) : Nat := openers false odd s

/-- The openers that a backslash hides. -/
def hidden (odd : Bool) (s : List Char) : Nat := openers true odd s

/-- Whether the run of backslashes that ends the text is odd. -/
def oddBehind (odd : Bool) (s : List Char) : Bool := s.foldl oddAfter odd

/-- Text that completes no opener or closer which began before it. -/
def Apart (s : List Char) : Prop := ∀ c ∈ s.head?, c ≠ '{' ∧ c ≠ '[' ∧ c ≠ '}'

/-! ## Openers, closers and what follows them -/

theorem oddAfter_of_ne {c : Char} (plain : c ≠ '\\') (odd : Bool) : oddAfter odd c = false := by
  simp [oddAfter, plain]

theorem head_of_opens {s : List Char} (found : opens s = true) : s.head? = some '$' := by
  obtain ⟨rest, rfl⟩ := opens_iff.1 found
  rfl

theorem opens_cons_of_ne {c : Char} (other : c ≠ '$') (s : List Char) : opens (c :: s) = false := by
  cases found : opens (c :: s) with
  | false => rfl
  | true => simpa [other] using head_of_opens found

theorem opens_append_of_opens {s : List Char} (found : opens s = true) (t : List Char) :
    opens (s ++ t) = true := by
  obtain ⟨rest, rfl⟩ := opens_iff.1 found
  rfl

theorem closes_cons_of_ne {c : Char} (other : c ≠ ']') (s : List Char) : closes (c :: s) = false := by
  unfold closes
  split
  · simp_all
  · rfl

theorem closes_append_of_ne_nil {c : Char} {s : List Char} (more : s ≠ []) (t : List Char) :
    closes (c :: (s ++ t)) = closes (c :: s) := by
  obtain ⟨d, s, rfl⟩ := List.exists_cons_of_ne_nil more
  by_cases both : c = ']' ∧ d = '}'
  · obtain ⟨rfl, rfl⟩ := both
    rfl
  · unfold closes
    split <;> split <;> simp_all

theorem apart_nil : Apart [] := by simp [Apart]

theorem apart_of_opens {s : List Char} (found : opens s = true) : Apart s := by
  intro c head
  rw [head_of_opens found] at head
  cases head
  decide

/-- Nothing before text that stands apart becomes an opener by it. -/
theorem opens_append_of_apart {c : Char} {s t : List Char} (apart : Apart t) :
    opens (c :: (s ++ t)) = opens (c :: s) := by
  cases found : opens (c :: (s ++ t)) with
  | false =>
    cases earlier : opens (c :: s) with
    | false => rfl
    | true => simpa [found] using opens_append_of_opens earlier t
  | true =>
    obtain ⟨rest, eq⟩ := opens_iff.1 found
    match s, eq with
    | [], eq =>
      simp only [List.nil_append, List.cons.injEq] at eq
      have := apart '{' (by simp [eq.2])
      simp at this
    | [_], eq =>
      simp only [List.cons_append, List.nil_append, List.cons.injEq] at eq
      have := apart '[' (by simp [eq.2.2])
      simp at this
    | _ :: _ :: _, eq =>
      simp only [List.cons_append, List.cons.injEq] at eq
      obtain ⟨rfl, rfl, rfl, -⟩ := eq
      rfl

/-! ## Counting openers -/

@[simp] theorem openers_nil (parity odd : Bool) : openers parity odd [] = 0 := rfl

@[simp] theorem oddBehind_nil (odd : Bool) : oddBehind odd [] = odd := rfl

@[simp] theorem oddBehind_cons (odd : Bool) (c : Char) (s : List Char) :
    oddBehind odd (c :: s) = oddBehind (oddAfter odd c) s := rfl

theorem oddBehind_append (odd : Bool) (s t : List Char) :
    oddBehind odd (s ++ t) = oddBehind (oddBehind odd s) t :=
  List.foldl_append

theorem oddBehind_concat_of_ne {c : Char} (plain : c ≠ '\\') (odd : Bool) (s : List Char) :
    oddBehind odd (s ++ [c]) = false := by
  rw [oddBehind_append, oddBehind_cons, oddBehind_nil, oddAfter_of_ne plain]

/-- Text and what stands apart behind it share no opener. -/
theorem openers_append {t : List Char} (apart : Apart t) (parity odd : Bool) (s : List Char) :
    openers parity odd (s ++ t) = openers parity odd s + openers parity (oddBehind odd s) t := by
  induction s generalizing odd with
  | nil => simp
  | cons c s ih =>
    simp only [List.cons_append, openers, opens_append_of_apart apart, ih, oddBehind_cons]
    omega

theorem openers_of_opens {s : List Char} (found : opens s = true) (parity odd : Bool) :
    openers parity odd s = (if odd == parity then 1 else 0) + openers parity false (s.drop 3) := by
  obtain ⟨rest, rfl⟩ := opens_iff.1 found
  simp [openers, opens, oddAfter]

/-! ## The two steps of each function -/

/-- Escaping writes a backslash before a live opener and copies all else. -/
theorem escapeFrom_cons (odd : Bool) (c : Char) (s : List Char) :
    (opens (c :: s) = true ∧ odd = false ∧ escapeFrom odd (c :: s) = '\\' :: c :: escapeFrom false s) ∨
      ((opens (c :: s) = true → odd = true) ∧
        escapeFrom odd (c :: s) = c :: escapeFrom (oddAfter odd c) s) := by
  by_cases added : (opens (c :: s) && !odd) = true
  · have opening := (Bool.and_eq_true_iff.1 added).1
    have dollar : c = '$' := by simpa using head_of_opens opening
    subst dollar
    refine .inl ⟨opening, by simpa using (Bool.and_eq_true_iff.1 added).2, ?_⟩
    simp [escapeFrom, added, oddAfter_of_ne]
  · refine .inr ⟨fun opening => by simpa [opening] using added, ?_⟩
    simp [escapeFrom, added]

/-- Unescaping drops a backslash that hides an opener and copies all else. -/
theorem unescapeFrom_cons (odd : Bool) (c : Char) (s : List Char) :
    (c = '\\' ∧ odd = false ∧ opens s = true ∧ unescapeFrom odd (c :: s) = unescapeFrom true s) ∨
      ((c = '\\' → opens s = true → odd = true) ∧
        unescapeFrom odd (c :: s) = c :: unescapeFrom (oddAfter odd c) s) := by
  by_cases dropped : (c == '\\' && !odd && opens s) = true
  · simp only [Bool.and_eq_true, beq_iff_eq, Bool.not_eq_true'] at dropped
    obtain ⟨⟨rfl, rfl⟩, opening⟩ := dropped
    exact .inl ⟨rfl, rfl, opening, by simp [unescapeFrom, opening, oddAfter]⟩
  · refine .inr ⟨fun same opening => by simpa [same, opening] using dropped, ?_⟩
    simp [unescapeFrom, dropped]

theorem escapeFrom_cons_of_ne {c : Char} (other : c ≠ '$') (odd : Bool) (s : List Char) :
    escapeFrom odd (c :: s) = c :: escapeFrom (oddAfter odd c) s := by
  simp [escapeFrom, opens_cons_of_ne other]

theorem unescapeFrom_cons_of_ne {c : Char} (plain : c ≠ '\\') (odd : Bool) (s : List Char) :
    unescapeFrom odd (c :: s) = c :: unescapeFrom false s := by
  simp [unescapeFrom, plain, oddAfter_of_ne]

/-! ## Openers stay where they are -/

/-- An opener is neither made nor lost where an escape is dropped behind its
    first character. -/
theorem opens_cons_unescapeFrom (c : Char) (odd : Bool) (s : List Char) :
    opens (c :: unescapeFrom odd s) = opens (c :: s) := by
  -- A dropped backslash leaves the dollar sign of an opener, which continues none.
  have head : ∀ (e : Char) (odd : Bool) (s rest : List Char), e ≠ '$' →
      unescapeFrom odd s = e :: rest → ∃ t, s = e :: t := by
    intro e odd s rest other eq
    cases s with
    | nil => simp [unescapeFrom] at eq
    | cons d s =>
      rcases unescapeFrom_cons odd d s with ⟨-, -, opening, dropped⟩ | ⟨-, copied⟩
      · obtain ⟨t, rfl⟩ := opens_iff.1 opening
        rw [dropped, unescapeFrom_cons_of_ne (by decide)] at eq
        exact absurd (List.cons.inj eq).1.symm other
      · rw [copied] at eq
        exact ⟨s, by rw [(List.cons.inj eq).1]⟩
  rw [Bool.eq_iff_iff, opens_iff, opens_iff]
  constructor
  · rintro ⟨rest, eq⟩
    obtain ⟨rfl, brace⟩ := List.cons.inj eq
    obtain ⟨s, rfl⟩ := head '{' odd s _ (by decide) brace
    rw [unescapeFrom_cons_of_ne (by decide)] at brace
    obtain ⟨s, rfl⟩ := head '[' false s _ (by decide) (List.cons.inj brace).2
    exact ⟨s, rfl⟩
  · rintro ⟨rest, eq⟩
    obtain ⟨rfl, rfl⟩ := List.cons.inj eq
    exact ⟨unescapeFrom false rest, by simp [unescapeFrom, oddAfter]⟩

/-- An opener is neither made nor lost where an escape is added behind its first
    character. -/
theorem opens_cons_escapeFrom (c : Char) (odd : Bool) (s : List Char) :
    opens (c :: escapeFrom odd s) = opens (c :: s) := by
  have head : ∀ (e : Char) (odd : Bool) (s rest : List Char), e ≠ '\\' →
      escapeFrom odd s = e :: rest → ∃ t, s = e :: t := by
    intro e odd s rest other eq
    cases s with
    | nil => simp [escapeFrom] at eq
    | cons d s =>
      rcases escapeFrom_cons odd d s with ⟨-, -, added⟩ | ⟨-, copied⟩
      · rw [added] at eq
        exact absurd (List.cons.inj eq).1.symm other
      · rw [copied] at eq
        exact ⟨s, by rw [(List.cons.inj eq).1]⟩
  rw [Bool.eq_iff_iff, opens_iff, opens_iff]
  constructor
  · rintro ⟨rest, eq⟩
    obtain ⟨rfl, brace⟩ := List.cons.inj eq
    obtain ⟨s, rfl⟩ := head '{' odd s _ (by decide) brace
    rw [escapeFrom_cons_of_ne (by decide)] at brace
    obtain ⟨s, rfl⟩ := head '[' _ s _ (by decide) (List.cons.inj brace).2
    exact ⟨s, rfl⟩
  · rintro ⟨rest, eq⟩
    obtain ⟨rfl, rfl⟩ := List.cons.inj eq
    exact ⟨escapeFrom false rest, by simp [escapeFrom, opens, oddAfter]⟩

/-- Escaped text begins with an opener only if that one is hidden. -/
theorem opens_escapeFrom (odd : Bool) (s : List Char) :
    opens (escapeFrom odd s) = (opens s && odd) := by
  cases s with
  | nil => rfl
  | cons c s =>
    rcases escapeFrom_cons odd c s with ⟨-, even, added⟩ | ⟨behind, copied⟩
    · rw [added, even, opens_cons_of_ne (by decide), Bool.and_false]
    · rw [copied, opens_cons_escapeFrom]
      cases opening : opens (c :: s) with
      | false => rfl
      | true => rw [behind opening]; rfl

theorem opens_unescapeFrom_of_opens {s : List Char} (opening : opens s = true) (odd : Bool) :
    opens (unescapeFrom odd s) = true := by
  obtain ⟨rest, rfl⟩ := opens_iff.1 opening
  rw [unescapeFrom_cons_of_ne (by decide), opens_cons_unescapeFrom]
  rfl

/-- An escaped opener and a live one differ in the backslash alone. -/
theorem escapeFrom_of_opens {s : List Char} (opening : opens s = true) :
    escapeFrom false s = '\\' :: escapeFrom true s := by
  obtain ⟨rest, rfl⟩ := opens_iff.1 opening
  simp [escapeFrom, opens, oddAfter]

/-! ## Backslashes at the end stay as they are -/

/-- An opener ends the run of backslashes before it. -/
theorem oddBehind_of_opens {s : List Char} (found : opens s = true) (odd other : Bool) :
    oddBehind odd s = oddBehind other s := by
  obtain ⟨rest, rfl⟩ := opens_iff.1 found
  simp [oddAfter]

theorem oddBehind_unescapeFrom (odd : Bool) (s : List Char) :
    oddBehind odd (unescapeFrom odd s) = oddBehind odd s := by
  induction s generalizing odd with
  | nil => rfl
  | cons c s ih =>
    rcases unescapeFrom_cons odd c s with ⟨rfl, rfl, opening, dropped⟩ | ⟨-, copied⟩
    · rw [dropped, oddBehind_of_opens (opens_unescapeFrom_of_opens opening true) false true, ih]
      rfl
    · rw [copied, oddBehind_cons, ih, oddBehind_cons]

theorem oddBehind_escapeFrom (odd : Bool) (s : List Char) :
    oddBehind odd (escapeFrom odd s) = oddBehind odd s := by
  induction s generalizing odd with
  | nil => rfl
  | cons c s ih =>
    rcases escapeFrom_cons odd c s with ⟨opening, -, added⟩ | ⟨-, copied⟩
    · have dollar : c = '$' := by simpa using head_of_opens opening
      subst dollar
      rw [added]
      simp only [oddBehind_cons, oddAfter_of_ne (c := '$') (by decide), ih]
    · rw [copied, oddBehind_cons, ih, oddBehind_cons]

/-! ## Each undoes the other -/

theorem openers_cons_eq_zero {parity odd : Bool} {c : Char} {s : List Char}
    (none : openers parity odd (c :: s) = 0) :
    (opens (c :: s) = true → odd ≠ parity) ∧ openers parity (oddAfter odd c) s = 0 := by
  simp only [openers, Nat.add_eq_zero_iff] at none
  refine ⟨fun opening same => ?_, none.2⟩
  simp [opening, same] at none

/-- Without a live opener, one that begins the text is hidden. -/
theorem odd_of_opens {odd : Bool} {s : List Char} (quiet : live odd s = 0) (opening : opens s = true) :
    odd = true := by
  obtain ⟨rest, rfl⟩ := opens_iff.1 opening
  simpa using (openers_cons_eq_zero quiet).1 opening

theorem opens_of_live_eq_zero {s : List Char} (quiet : live false s = 0) : opens s = false :=
  Bool.eq_false_iff.2 fun opening => Bool.false_ne_true (odd_of_opens quiet opening)

theorem openers_eq_zero_cons {parity odd : Bool} {c : Char} {s : List Char}
    (here : opens (c :: s) = true → odd ≠ parity) (later : openers parity (oddAfter odd c) s = 0) :
    openers parity odd (c :: s) = 0 := by
  rw [openers, later]
  cases opening : opens (c :: s) with
  | false => rfl
  | true => simp [here opening]

/-- Without a live opener there is nothing to escape. -/
theorem escapeFrom_eq_self {odd : Bool} {s : List Char} (quiet : live odd s = 0) : escapeFrom odd s = s := by
  induction s generalizing odd with
  | nil => rfl
  | cons c s ih =>
    obtain ⟨here, later⟩ := openers_cons_eq_zero quiet
    rcases escapeFrom_cons odd c s with ⟨opening, even, -⟩ | ⟨-, copied⟩
    · exact absurd even (here opening)
    · rw [copied, ih later]

/-- Without a hidden opener there is nothing to unescape. -/
theorem unescapeFrom_eq_self {odd : Bool} {s : List Char} (bare : hidden odd s = 0) :
    unescapeFrom odd s = s := by
  induction s generalizing odd with
  | nil => rfl
  | cons c s ih =>
    obtain ⟨-, later⟩ := openers_cons_eq_zero bare
    rcases unescapeFrom_cons odd c s with ⟨rfl, rfl, opening, -⟩ | ⟨-, copied⟩
    · -- The opener that follows stands behind an odd run, and none does.
      obtain ⟨rest, rfl⟩ := opens_iff.1 opening
      exact absurd rfl ((openers_cons_eq_zero later).1 rfl)
    · rw [copied, ih later]

/-- An escape that was dropped is written again. -/
theorem escapeFrom_absorbs (odd : Bool) (s : List Char) :
    escapeFrom odd (unescapeFrom odd s) = escapeFrom odd s := by
  induction s generalizing odd with
  | nil => rfl
  | cons c s ih =>
    rcases unescapeFrom_cons odd c s with ⟨rfl, rfl, opening, dropped⟩ | ⟨-, copied⟩
    · rw [dropped, escapeFrom_of_opens (opens_unescapeFrom_of_opens opening true), ih,
        escapeFrom_cons_of_ne (by decide)]
      rfl
    · rw [copied]
      simp only [escapeFrom, opens_cons_unescapeFrom, ih]

/-- An escape that was written is dropped again. -/
theorem unescapeFrom_absorbs (odd : Bool) (s : List Char) :
    unescapeFrom odd (escapeFrom odd s) = unescapeFrom odd s := by
  induction s generalizing odd with
  | nil => rfl
  | cons c s ih =>
    rcases escapeFrom_cons odd c s with ⟨opening, rfl, added⟩ | ⟨-, copied⟩
    · have dollar : c = '$' := by simpa using head_of_opens opening
      subst dollar
      have kept : opens ('$' :: escapeFrom false s) = true := by rw [opens_cons_escapeFrom, opening]
      rw [added]
      simp [unescapeFrom, kept, oddAfter, ih]
    · rw [copied]
      by_cases backslash : c = '\\'
      · subst backslash
        -- Behind the backslash an opener is hidden, so escaping leaves it where it is.
        cases odd with
        | false => simp [unescapeFrom, opens_escapeFrom, oddAfter, ih]
        | true => simp [unescapeFrom, oddAfter, ih]
      · rw [unescapeFrom_cons_of_ne backslash, unescapeFrom_cons_of_ne backslash, oddAfter_of_ne backslash, ih]

/-- Where no opener is live, every escape that is dropped comes back. -/
theorem escapeFrom_unescapeFrom {odd : Bool} {s : List Char} (quiet : live odd s = 0) :
    escapeFrom odd (unescapeFrom odd s) = s :=
  (escapeFrom_absorbs odd s).trans (escapeFrom_eq_self quiet)

/-- Where no opener is hidden, every escape that is added is dropped again. -/
theorem unescapeFrom_escapeFrom {odd : Bool} {s : List Char} (bare : hidden odd s = 0) :
    unescapeFrom odd (escapeFrom odd s) = s :=
  (unescapeFrom_absorbs odd s).trans (unescapeFrom_eq_self bare)

theorem live_escapeFrom (odd : Bool) (s : List Char) : live odd (escapeFrom odd s) = 0 := by
  induction s generalizing odd with
  | nil => rfl
  | cons c s ih =>
    rcases escapeFrom_cons odd c s with ⟨opening, rfl, added⟩ | ⟨behind, copied⟩
    · have dollar : c = '$' := by simpa using head_of_opens opening
      subst dollar
      have := ih false
      simp only [live] at this
      simp [added, live, openers, opens_cons_of_ne, oddAfter, this]
    · have := ih (oddAfter odd c)
      simp only [live] at this
      rw [copied, live, openers, this, opens_cons_escapeFrom]
      cases opening : opens (c :: s) with
      | false => rfl
      | true => rw [behind opening]; rfl

/-- No opener of unescaped text is hidden. The one behind a dropped backslash is
    counted from the parity that the text left has there. -/
theorem hidden_unescapeFrom (odd : Bool) (s : List Char) :
    hidden (odd && !opens s) (unescapeFrom odd s) = 0 := by
  induction s generalizing odd with
  | nil => rfl
  | cons c s ih =>
    have inner := ih (oddAfter odd c)
    rcases unescapeFrom_cons odd c s with ⟨rfl, rfl, opening, dropped⟩ | ⟨behind, copied⟩
    · rw [dropped, opens_cons_of_ne (by decide)]
      simpa [opening, oddAfter] using inner
    · have same : oddAfter (odd && !opens (c :: s)) c = (oddAfter odd c && !opens s) := by
        by_cases backslash : c = '\\'
        · subst backslash
          rw [opens_cons_of_ne (by decide)]
          cases opening : opens s with
          | false => simp
          | true => simp [oddAfter, behind rfl opening]
        · simp [oddAfter_of_ne backslash]
      rw [copied, hidden, openers, same, opens_cons_unescapeFrom]
      simp only [hidden] at inner
      rw [inner]
      cases opens (c :: s) <;> simp

end RequestTemplate.Delimiter
