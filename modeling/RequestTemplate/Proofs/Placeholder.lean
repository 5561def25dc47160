import Mathlib
import RequestTemplate.Request.Placeholder

/-!
# Segments of a URL

A name stands as a segment of a URL where a slash is before it and the segment ends
behind it (`Heads`, `Occurs`). Filling a placeholder replaces the segments of its name and
copies everything else, whatever the name is (`fillFrom_of_heads`,
`fillFrom_of_not_heads`). What it writes in their places is percent-encoded and holds
neither a slash nor a colon (`Percent.ne_of_mem_encode`).
-/

namespace RequestTemplate

namespace Percent

theorem unreserved_digit {n : Nat} (small : n < 16) : isUnreserved (digit n).toNat = true := by
  revert n
  decide

theorem unreserved_of_mem_encodeByte {b : UInt8} {c : Char} (member : c ∈ encodeByte b) :
    c = '%' ∨ isUnreserved c.toNat = true := by
  have byte := b.toNat_lt
  simp only [encodeByte] at member
  split at member
  · rename_i unreserved
    obtain rfl := List.mem_singleton.1 member
    have valid : b.toNat.isValidChar := .inl (by omega)
    exact .inr (by rwa [Char.toNat_ofNat, if_pos valid])
  · simp only [List.mem_cons, List.not_mem_nil, or_false] at member
    obtain rfl | rfl | rfl := member
    · exact .inl rfl
    · exact .inr (unreserved_digit (by omega))
    · exact .inr (unreserved_digit (by omega))

/-- Percent-encoded text holds unreserved characters and percent signs. -/
theorem unreserved_of_mem_encode {text : String} {c : Char} (member : c ∈ (encode text).toList) :
    c = '%' ∨ isUnreserved c.toNat = true := by
  rw [encode, String.toList_ofList] at member
  obtain ⟨b, -, written⟩ := List.mem_flatMap.1 member
  exact unreserved_of_mem_encodeByte written

theorem ne_of_mem_encode {text : String} {c : Char} (member : c ∈ (encode text).toList) : c ≠ '/' ∧ c ≠ ':' := by
  have allowed := unreserved_of_mem_encode member
  constructor <;>
  · rintro rfl
    exact absurd allowed (by decide)

end Percent

namespace Placeholder

/-! ## Where a name stands -/

/-- The name stands at the head of the text as a segment, behind its slash. -/
def Heads (name s : List Char) : Prop :=
  ∃ rest, s = '/' :: (name ++ rest) ∧ endsSegment rest = true

/-- The name stands as a segment somewhere in the text. -/
def Occurs (name s : List Char) : Prop :=
  ∃ before behind, s = before ++ behind ∧ Heads name behind

/-- The name holds no character at which a segment ends. -/
def Undivided (name : List Char) : Prop :=
  ∀ c ∈ name, c ∉ ['/', '?', '#', '\n']

theorem heads_iff {name s : List Char} :
    Heads name s ↔ '/' :: name <+: s ∧ endsSegment (s.drop (name.length + 1)) = true := by
  constructor
  · rintro ⟨rest, rfl, ends⟩
    exact ⟨⟨rest, rfl⟩, by simpa using ends⟩
  · rintro ⟨⟨rest, rfl⟩, ends⟩
    exact ⟨rest, rfl, by simpa using ends⟩

instance (name s : List Char) : Decidable (Heads name s) :=
  decidable_of_iff _ heads_iff.symm

theorem occurs_iff {name s : List Char} : Occurs name s ↔ ∃ behind ∈ s.tails, Heads name behind := by
  simp only [List.mem_tails]
  constructor
  · rintro ⟨before, behind, rfl, heads⟩
    exact ⟨behind, ⟨before, rfl⟩, heads⟩
  · rintro ⟨behind, ⟨before, rfl⟩, heads⟩
    exact ⟨before, behind, rfl, heads⟩

instance (name s : List Char) : Decidable (Occurs name s) :=
  decidable_of_iff _ occurs_iff.symm

theorem endsSegment_cons_iff {c : Char} {s : List Char} :
    endsSegment (c :: s) = true ↔ c ∈ ['/', '?', '#'] ∨ c = '\n' ∧ s = [] := by
  unfold endsSegment
  split
  · simp_all
  · simp_all
  · rename_i first rest other eq
    obtain ⟨rfl, rfl⟩ := List.cons.inj eq
    have none : ¬(c = '\n' ∧ s = []) := fun last => other last.1 last.2
    simp [none, or_assoc]

/-- What ends a segment does not go on with the name of a placeholder. -/
theorem head?_ne_of_endsSegment {s : List Char} (ends : endsSegment s = true) : s.head? ≠ some ':' := by
  cases s with
  | nil => simp
  | cons c s =>
    rintro ⟨⟩
    exact absurd (endsSegment_cons_iff.1 ends) (by simp)

theorem Undivided.not_ends {c : Char} {name : List Char} (undivided : Undivided (c :: name)) (s : List Char) :
    ¬ endsSegment (c :: s) = true := by
  intro ends
  have fresh := undivided c List.mem_cons_self
  rcases endsSegment_cons_iff.1 ends with found | ⟨rfl, -⟩
  · exact fresh (List.mem_append_left ['\n'] found)
  · exact fresh (by decide)

theorem Undivided.tail {c : Char} {name : List Char} (undivided : Undivided (c :: name)) : Undivided name :=
  fun d member => undivided d (List.mem_cons_of_mem _ member)

theorem Undivided.slashless {name : List Char} (undivided : Undivided name) : '/' ∉ name :=
  fun member => undivided '/' member (by decide)

theorem not_heads_of_ne {c : Char} (other : c ≠ '/') (name s : List Char) : ¬ Heads name (c :: s) := by
  rintro ⟨rest, eq, -⟩
  exact other (List.cons.inj eq).1

/-- A segment is one name only. -/
theorem Heads.unique {name other s : List Char} (heads : Heads name s) (again : Heads other s)
    (undivided : Undivided name) (otherUndivided : Undivided other) : name = other := by
  obtain ⟨rest, rfl, ends⟩ := heads
  obtain ⟨behind, eq, endsToo⟩ := again
  have same : name ++ rest = other ++ behind := (List.cons.inj eq).2
  clear eq
  -- the shorter name ends where the longer one has a character that ends no segment
  induction name generalizing other with
  | nil =>
    cases other with
    | nil => rfl
    | cons c other =>
      obtain rfl : rest = c :: (other ++ behind) := same
      exact absurd ends (otherUndivided.not_ends _)
  | cons c name ih =>
    cases other with
    | nil =>
      obtain rfl : c :: (name ++ rest) = behind := same
      exact absurd endsToo (undivided.not_ends _)
    | cons d other =>
      obtain ⟨rfl, later⟩ := List.cons.inj same
      rw [ih undivided.tail otherUndivided.tail later]

theorem occurs_nil (name : List Char) : ¬ Occurs name [] := by
  rintro ⟨before, behind, split, rest, rfl, -⟩
  simp at split

theorem occurs_cons_iff {name : List Char} {c : Char} {s : List Char} :
    Occurs name (c :: s) ↔ Heads name (c :: s) ∨ Occurs name s := by
  constructor
  · rintro ⟨before, behind, split, heads⟩
    cases before with
    | nil =>
      obtain rfl : c :: s = behind := split
      exact .inl heads
    | cons b before => exact .inr ⟨before, behind, (List.cons.inj split).2, heads⟩
  · rintro (heads | ⟨before, behind, rfl, heads⟩)
    · exact ⟨[], c :: s, rfl, heads⟩
    · exact ⟨c :: before, behind, rfl, heads⟩

/-- Segments begin at slashes. -/
theorem occurs_append_iff {name t s : List Char} (slashless : '/' ∉ t) : Occurs name (t ++ s) ↔ Occurs name s := by
  induction t with
  | nil => rfl
  | cons c t ih =>
    obtain ⟨here, later⟩ := not_or.1 (mt List.mem_cons.2 slashless)
    rw [List.cons_append, occurs_cons_iff, ih later]
    exact or_iff_right (not_heads_of_ne (Ne.symm here) name _)

/-! ## Filling one placeholder -/

theorem fillFrom_skip (name value : List Char) (skipped : Nat) (s : List Char) :
    fillFrom name value skipped s = fillFrom name value 0 (s.drop skipped) := by
  induction s generalizing skipped with
  | nil => simp [fillFrom]
  | cons c s ih =>
    cases skipped with
    | zero => rfl
    | succ skipped => rw [fillFrom, ih, List.drop_succ_cons]

/-- A segment of the name gives way to the value. -/
theorem fillFrom_of_heads {name value rest : List Char} (ends : endsSegment rest = true) :
    fillFrom name value 0 ('/' :: (name ++ rest)) = '/' :: (value ++ fillFrom name value 0 rest) := by
  simp [fillFrom, ends, fillFrom_skip name value name.length]

/-- Everything else is copied. -/
theorem fillFrom_of_not_heads {name : List Char} {c : Char} {s : List Char} (apart : ¬ Heads name (c :: s))
    (value : List Char) : fillFrom name value 0 (c :: s) = c :: fillFrom name value 0 s := by
  rw [fillFrom]
  refine if_neg ?_
  rintro ⟨rfl, found, ends⟩
  obtain ⟨rest, rfl⟩ := List.isPrefixOf_iff_prefix.1 found
  exact apart ⟨rest, rfl, by simpa using ends⟩

end Placeholder

end RequestTemplate
