import RequestTemplate.Proofs.Delimiter
import RequestTemplate.Template.Span

/-!
# Which spans a source has

`Proper` says of a list of spans, without reading it back, that it is what its
source splits into: literal text is not empty, holds no live opener, meets no
other literal text and hides no tag behind it, and every tag ends at its first
closer. `proper_iff_spans_eq` says that the two agree.
-/

namespace RequestTemplate.Span
open Delimiter

/-- A body that ends at the closer behind it and at no earlier one. -/
def Closed (body : List Char) : Prop := splitTag .bare (body ++ closer) = some (body, [])

/-- What may stand behind literal text: a tag whose opener is live, or nothing. -/
def Follows (s : List Char) : List Span → Prop
  | [] => True
  | text _ :: _ => False
  | tag _ :: _ | unclosed _ :: _ => oddBehind false s = false

def Proper : List Span → Prop
  | [] => True
  | text s :: rest => s ≠ [] ∧ live false s = 0 ∧ Follows s rest ∧ Proper rest
  | tag body :: rest => Closed body ∧ Proper rest
  | unclosed s :: rest => opens s = true ∧ splitTag .bare (s.drop 3) = none ∧ rest = []

/-! ## Reading one span -/

/-- A tag's body ends here or takes one more character. -/
theorem splitTag_cons {state : Quoting} {c : Char} {s body rest : List Char}
    (found : splitTag state (c :: s) = some (body, rest)) :
    (state = .bare ∧ body = [] ∧ c :: s = closer ++ rest) ∨
      (¬(state = .bare ∧ closes (c :: s) = true) ∧
        ∃ inner, body = c :: inner ∧ splitTag (state.step c) s = some (inner, rest)) := by
  simp only [splitTag] at found
  split at found
  · rename_i stops
    obtain ⟨after, eq⟩ := closes_iff.1 stops.2
    obtain ⟨rfl, rfl⟩ := List.cons.inj eq
    simp only [Option.some.injEq, Prod.mk.injEq] at found
    obtain ⟨rfl, rfl⟩ := found
    exact .inl ⟨stops.1, rfl, rfl⟩
  · rename_i goes
    obtain ⟨⟨inner, after⟩, later, eq⟩ := Option.map_eq_some_iff.1 found
    obtain ⟨rfl, rfl⟩ := Prod.mk.inj eq
    exact .inr ⟨goes, inner, rfl, later⟩

theorem splitTag_stop (rest : List Char) : splitTag .bare (closer ++ rest) = some ([], rest) := by
  simp [closer, splitTag, closes]

theorem splitTag_go {state : Quoting} {c : Char} {s : List Char}
    (goes : ¬(state = .bare ∧ closes (c :: s) = true)) :
    splitTag state (c :: s) = (splitTag (state.step c) s).map fun (body, after) => (c :: body, after) := by
  rw [splitTag, if_neg goes]

/-- What stands behind the closer of a tag is no matter to the tag. -/
theorem splitTag_append {state : Quoting} {s body rest : List Char}
    (found : splitTag state s = some (body, rest)) (t : List Char) :
    splitTag state (s ++ t) = some (body, rest ++ t) := by
  induction s generalizing state body with
  | nil => simp [splitTag] at found
  | cons c s ih =>
    rcases splitTag_cons found with ⟨rfl, rfl, eq⟩ | ⟨goes, inner, rfl, later⟩
    · rw [eq, List.append_assoc, splitTag_stop]
    · have more : s ≠ [] := by rintro rfl; simp [splitTag] at later
      rw [List.cons_append, splitTag_go (by rwa [closes_append_of_ne_nil more]), ih later]
      rfl

theorem splitTag_of_closed {body : List Char} (closed : Closed body) (t : List Char) :
    splitTag .bare (body ++ closer ++ t) = some (body, t) :=
  splitTag_append closed t

theorem closed_of_splitTag {state : Quoting} {s body rest : List Char}
    (found : splitTag state s = some (body, rest)) :
    splitTag state (body ++ closer) = some (body, []) := by
  induction s generalizing state body with
  | nil => simp [splitTag] at found
  | cons c s ih =>
    rcases splitTag_cons found with ⟨rfl, rfl, -⟩ | ⟨goes, inner, rfl, later⟩
    · exact splitTag_stop []
    · have whole : inner ++ closer ++ rest = s := append_of_splitTag later
      have more : inner ++ closer ≠ [] := by simp [closer]
      rw [← whole, closes_append_of_ne_nil more] at goes
      rw [List.cons_append, splitTag_go goes, ih later]
      rfl

/-- Where literal text ends: at the end of the source, or before a live opener. -/
theorem splitText_stops (odd : Bool) (s : List Char) :
    (splitText odd s).2 = [] ∨
      (opens (splitText odd s).2 = true ∧ oddBehind odd (splitText odd s).1 = false) := by
  induction s generalizing odd with
  | nil => exact .inl rfl
  | cons c s ih =>
    simp only [splitText]
    split
    · rename_i stops
      exact .inr (by simpa using stops)
    · exact ih (oddAfter odd c)

theorem live_splitText (odd : Bool) (s : List Char) : live odd (splitText odd s).1 = 0 := by
  induction s generalizing odd with
  | nil => rfl
  | cons c s ih =>
    have later := ih (oddAfter odd c)
    simp only [splitText]
    split
    · rfl
    · rename_i goes
      refine openers_eq_zero_cons (fun opening even => goes ?_) later
      have whole := opens_append_of_opens opening (splitText (oddAfter odd c) s).2
      rw [List.cons_append, splitText_append] at whole
      simp [whole, even]

/-- Literal text shares no opener with what stands where it stops. -/
theorem apart_of_stops {odd : Bool} {s t : List Char}
    (stops : t = [] ∨ (opens t = true ∧ oddBehind odd s = false)) : Apart t := by
  rcases stops with rfl | ⟨opening, -⟩
  · exact apart_nil
  · exact apart_of_opens opening

theorem splitText_of_live_eq_zero {odd : Bool} {s t : List Char} (quiet : live odd s = 0)
    (stops : t = [] ∨ (opens t = true ∧ oddBehind odd s = false)) :
    splitText odd (s ++ t) = (s, t) := by
  have apart : Apart t := apart_of_stops stops
  induction s generalizing odd with
  | nil =>
    rcases stops with rfl | ⟨opening, even⟩
    · rfl
    · obtain ⟨rest, rfl⟩ := opens_iff.1 opening
      have even : odd = false := even
      simp [splitText, opening, even]
  | cons c s ih =>
    obtain ⟨here, later⟩ := openers_cons_eq_zero quiet
    rw [List.cons_append, splitText, opens_append_of_apart apart, if_neg, ih later stops]
    intro opening
    simp only [Bool.and_eq_true, Bool.not_eq_true'] at opening
    exact here opening.1 opening.2

/-! ## Reading all spans -/

theorem spans_nil : spans [] = [] := by rw [spans]

theorem spans_tag {t body rest : List Char} (found : splitTag .bare t = some (body, rest)) :
    spans (opener ++ t) = tag body :: spans rest := by
  rw [opener, List.cons_append, spans, dif_pos (by rfl)]
  split
  · rename_i missing
    exact absurd (found.symm.trans missing) (by simp)
  · rename_i body' rest' again
    obtain ⟨rfl, rfl⟩ := Prod.mk.inj (Option.some.inj (found.symm.trans again))
    rfl

theorem spans_unclosed {s : List Char} (opening : opens s = true)
    (endless : splitTag .bare (s.drop 3) = none) : spans s = [unclosed s] := by
  obtain ⟨t, rfl⟩ := opens_iff.1 opening
  rw [spans, dif_pos (by rfl)]
  split
  · rfl
  · rename_i found
    exact absurd (endless.symm.trans found) (by simp)

theorem spans_text {s : List Char} (more : s ≠ []) (literal : opens s = false) :
    spans s = text (splitText false s).1 :: spans (splitText false s).2 := by
  obtain ⟨c, s, rfl⟩ := List.exists_cons_of_ne_nil more
  rw [spans, dif_neg (by simp [literal])]

theorem follows_spans {s t : List Char} (stops : t = [] ∨ (opens t = true ∧ oddBehind false s = false)) :
    Follows s (spans t) := by
  rcases stops with rfl | ⟨opening, even⟩
  · rw [spans_nil]
    trivial
  · obtain ⟨rest, rfl⟩ := opens_iff.1 opening
    cases found : splitTag .bare rest with
    | none => rw [spans_unclosed opening found]; exact even
    | some split =>
      rw [show '$' :: '{' :: '[' :: rest = opener ++ rest from rfl, spans_tag found]
      exact even

theorem proper_spans (s : List Char) : Proper (spans s) := by
  fun_induction spans s with
  | case1 => trivial
  | case2 c s opening endless =>
    obtain ⟨t, eq⟩ := opens_iff.1 opening
    obtain ⟨rfl, rfl⟩ := List.cons.inj eq
    exact ⟨opening, endless, rfl⟩
  | case3 c s opening body rest found ih => exact ⟨closed_of_splitTag found, ih⟩
  | case4 c s literal ih =>
    refine ⟨?_, live_splitText false (c :: s), follows_spans (splitText_stops false (c :: s)), ih⟩
    simp [splitText, literal]

/-- The spans that may follow literal text begin where the text stops. -/
theorem stops_of_follows {s : List Char} {rest : List Span} (follows : Follows s rest) (proper : Proper rest) :
    rest.flatMap source = [] ∨ (opens (rest.flatMap source) = true ∧ oddBehind false s = false) := by
  cases rest with
  | nil => exact .inl rfl
  | cons next rest =>
    refine .inr ?_
    cases next with
    | text s => exact follows.elim
    | tag body => exact ⟨rfl, follows⟩
    | unclosed s => exact ⟨by simpa [source] using opens_append_of_opens proper.1 _, follows⟩

/-- A proper list of spans is what its source splits into. -/
theorem spans_of_proper {spanList : List Span} (proper : Proper spanList) :
    spans (spanList.flatMap source) = spanList := by
  induction spanList with
  | nil => exact spans_nil
  | cons span rest ih =>
    cases span with
    | tag body =>
      have found := splitTag_of_closed proper.1 (rest.flatMap source)
      simp only [List.flatMap_cons, source, List.append_assoc] at found ⊢
      rw [spans_tag found, ih proper.2]
    | unclosed s =>
      obtain ⟨opening, endless, rfl⟩ := proper
      simpa [source] using spans_unclosed opening endless
    | text s =>
      obtain ⟨more, quiet, follows, proper⟩ := proper
      have stops := stops_of_follows follows proper
      have apart := apart_of_stops stops
      have read := splitText_of_live_eq_zero quiet stops
      obtain ⟨c, s, rfl⟩ := List.exists_cons_of_ne_nil more
      have literal := opens_of_live_eq_zero quiet
      rw [List.flatMap_cons, source, spans_text (by simp) (by
        rw [List.cons_append, opens_append_of_apart apart, literal]), read, ih proper]

theorem proper_iff_spans_eq {spanList : List Span} :
    Proper spanList ↔ spans (spanList.flatMap source) = spanList :=
  ⟨spans_of_proper, fun same => same ▸ proper_spans _⟩

end RequestTemplate.Span
