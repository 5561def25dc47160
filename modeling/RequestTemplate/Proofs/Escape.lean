import RequestTemplate.Proofs.Delimiter

/-!
# Escaping and unescaping absorb each other

Whether an opener is escaped is a matter of the run of backslashes before it:
`OpenerBehind Odd` says that a text holds an escaped opener, `OpenerBehind Even`
that it holds a live one. Escaping after unescaping, or the other way round, does
what the later one does alone, and each of the two changes nothing exactly where
the text holds no opener for it (`absorption`).
-/

namespace RequestTemplate.Delimiter

/-- The length of the run of backslashes that ends the text. -/
def backslashes (s : List Char) : Nat := (s.reverse.takeWhile (· == '\\')).length

/-- Some opener stands behind a run of backslashes of such a length. -/
def OpenerBehind (run : Nat → Prop) (text : String) : Prop :=
  ∃ before after, text.toList = before ++ '$' :: '{' :: '[' :: after ∧ run (backslashes before)

/-! ## Runs of backslashes -/

theorem backslashes_concat (s : List Char) (c : Char) :
    backslashes (s ++ [c]) = if c = '\\' then backslashes s + 1 else 0 := by
  by_cases same : c = '\\' <;> simp [backslashes, same]

/-- The parity that is carried along is that of the run counted backwards. -/
theorem oddBehind_iff (s : List Char) : oddBehind false s = true ↔ Odd (backslashes s) := by
  induction s using List.reverseRecOn with
  | nil => simp [backslashes]
  | append_singleton s c ih =>
    rw [oddBehind_append, oddBehind_cons, oddBehind_nil, backslashes_concat]
    by_cases same : c = '\\'
    · rw [if_pos same, Nat.odd_add_one, ← ih]
      simp [oddAfter, same]
    · rw [if_neg same, oddAfter_of_ne same]
      simp

/-- No opener is counted if none stands behind a run of the parity. -/
theorem openers_eq_zero_iff {parity odd : Bool} {s : List Char} :
    openers parity odd s = 0 ↔
      ∀ before after, s = before ++ '$' :: '{' :: '[' :: after → oddBehind odd before ≠ parity := by
  induction s generalizing odd with
  | nil => simp
  | cons c s ih =>
    constructor
    · intro none before after split
      obtain ⟨here, later⟩ := openers_cons_eq_zero none
      cases before with
      | nil => exact here (opens_iff.2 ⟨after, split⟩)
      | cons b before =>
        obtain ⟨rfl, rest⟩ := List.cons.inj split
        exact ih.1 later before after rest
    · intro apart
      refine openers_eq_zero_cons (fun opening => ?_) (ih.2 fun before after split => ?_)
      · obtain ⟨after, split⟩ := opens_iff.1 opening
        exact apart [] after split
      · exact apart (c :: before) after (congrArg (c :: ·) split)

theorem hidden_eq_zero_iff {text : String} : hidden false text.toList = 0 ↔ ¬ OpenerBehind Odd text := by
  rw [hidden, openers_eq_zero_iff, OpenerBehind]
  constructor
  · rintro apart ⟨before, after, split, odd⟩
    exact apart before after split ((oddBehind_iff before).2 odd)
  · intro none before after split odd
    exact none ⟨before, after, split, (oddBehind_iff before).1 odd⟩

theorem live_eq_zero_iff {text : String} : live false text.toList = 0 ↔ ¬ OpenerBehind Even text := by
  rw [live, openers_eq_zero_iff, OpenerBehind]
  constructor
  · rintro apart ⟨before, after, split, even⟩
    refine apart before after split (Bool.eq_false_iff.2 fun odd => ?_)
    exact Nat.not_odd_iff_even.2 even ((oddBehind_iff before).1 odd)
  · intro none before after split even
    refine none ⟨before, after, split, Nat.not_odd_iff_even.1 fun odd => ?_⟩
    rw [(oddBehind_iff before).2 odd] at even
    exact absurd even (by decide)

/-! ## Texts -/

theorem toList_escape (text : String) : (escape text).toList = escapeFrom false text.toList :=
  String.toList_ofList

theorem toList_unescape (text : String) : (unescape text).toList = unescapeFrom false text.toList :=
  String.toList_ofList

theorem unescape_escape (text : String) : unescape (escape text) = unescape text := by
  rw [unescape, toList_escape, unescapeFrom_absorbs, unescape]

theorem escape_unescape (text : String) : escape (unescape text) = escape text := by
  rw [escape, toList_unescape, escapeFrom_absorbs, escape]

/-- Escaped text holds no live opener, and text without one is left alone. -/
theorem escape_eq_self_iff (text : String) : escape text = text ↔ ¬ OpenerBehind Even text := by
  rw [← live_eq_zero_iff]
  constructor
  · intro same
    rw [← same, toList_escape, live_escapeFrom]
  · intro quiet
    rw [escape, escapeFrom_eq_self quiet, String.ofList_toList]

/-- Unescaped text holds no escaped opener, and text without one is left alone. -/
theorem unescape_eq_self_iff (text : String) : unescape text = text ↔ ¬ OpenerBehind Odd text := by
  rw [← hidden_eq_zero_iff]
  constructor
  · intro same
    rw [← same, toList_unescape]
    simpa using hidden_unescapeFrom false text.toList
  · intro bare
    rw [unescape, unescapeFrom_eq_self bare, String.ofList_toList]

/-- Of escaping and unescaping only the later one counts. So both are idempotent, and
    either undoes the other exactly where the other has nothing of its own to find: a
    text without escaped openers comes back from its escaped form, one without live
    openers from its unescaped form. -/
theorem absorption (text : String) :
    unescape (escape text) = unescape text ∧ escape (unescape text) = escape text ∧
      escape (escape text) = escape text ∧ unescape (unescape text) = unescape text ∧
      (unescape text = text ↔ ¬ OpenerBehind Odd text) ∧ (escape text = text ↔ ¬ OpenerBehind Even text) ∧
      (unescape (escape text) = text ↔ ¬ OpenerBehind Odd text) ∧
      (escape (unescape text) = text ↔ ¬ OpenerBehind Even text) := by
  have escapeTwice : escape (escape text) = escape text := by
    rw [← escape_unescape (escape text), unescape_escape, escape_unescape]
  have unescapeTwice : unescape (unescape text) = unescape text := by
    rw [← unescape_escape (unescape text), escape_unescape, unescape_escape]
  refine ⟨unescape_escape text, escape_unescape text, escapeTwice, unescapeTwice, unescape_eq_self_iff text,
    escape_eq_self_iff text, ?_, ?_⟩
  · rw [unescape_escape, unescape_eq_self_iff]
  · rw [escape_unescape, escape_eq_self_iff]

/-- An opener that is escaped already comes back live. -/
example : unescape (escape "$\x7b[ \\$\x7b[") = "$\x7b[ $\x7b[" := by cbv

end RequestTemplate.Delimiter
