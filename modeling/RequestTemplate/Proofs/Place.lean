import RequestTemplate.Proofs.Span

/-!
# Reading a source character by character

A `Place` is what a source must remember of the characters already read to tell
its tags apart from its text. `inside_after` says that reading ends inside a tag
if and only if the last span is never closed, and `trace_eq_marked` that what is
read inside tags are the bodies of the tag spans, in order.
-/

namespace RequestTemplate
open Delimiter

namespace Span

/-- The body of a span that is a tag. -/
def body? : Span → Option (List Char)
  | tag body => some body
  | _ => none

def endless : Span → Bool
  | unclosed _ => true
  | _ => false

def bodies (s : List Char) : List (List Char) := (spans s).filterMap body?

/-- Whether a tag begins in the text that the text does not close. -/
def inside (s : List Char) : Bool := (spans s).any endless

end Span

inductive Place where
  /-- In literal text, behind a run of backslashes of this parity. -/
  | text (odd : Bool)
  /-- Behind the first character of a live opener, and behind its second. -/
  | dollar
  | brace
  | tag (state : Span.Quoting)
  /-- In a tag, behind a bracket that may close it. -/
  | bracket
  deriving DecidableEq

namespace Place
open RequestTemplate.Span (Quoting splitTag splitText splitTag_cons splitTag_go)

/-! ## One character and many -/

/-- The place behind a character of literal text. -/
def literal (odd : Bool) (c : Char) : Place :=
  if c = '$' ∧ odd = false then dollar else text (oddAfter odd c)

/-- The place behind a character of a tag that does not close it. -/
def inner (state : Quoting) (c : Char) : Place :=
  if state = .bare ∧ c = ']' then bracket else tag (state.step c)

def step : Place → Char → Place
  | text odd, c => literal odd c
  | dollar, c => if c = '{' then brace else literal false c
  | brace, c => if c = '[' then tag .bare else literal false c
  | tag state, c => inner state c
  | bracket, c => if c = '}' then text false else inner .bare c

def after (place : Place) (s : List Char) : Place := s.foldl step place

def inside : Place → Bool
  | tag _ | bracket => true
  | _ => false

/-- What a character inside a tag is read as: the one that closes it as `none`. -/
def mark (place : Place) (c : Char) : Option Char :=
  if place = bracket ∧ c = '}' then none else some c

/-- What is read inside tags. -/
def trace (place : Place) : List Char → List (Option Char)
  | [] => []
  | c :: s => (if place.inside then [place.mark c] else []) ++ trace (place.step c) s

@[simp] theorem after_nil (place : Place) : place.after [] = place := rfl

@[simp] theorem after_cons (place : Place) (c : Char) (s : List Char) :
    place.after (c :: s) = (place.step c).after s := rfl

theorem after_append (place : Place) (s t : List Char) :
    place.after (s ++ t) = (place.after s).after t :=
  List.foldl_append

@[simp] theorem trace_nil (place : Place) : place.trace [] = [] := rfl

theorem trace_append (place : Place) (s t : List Char) :
    place.trace (s ++ t) = place.trace s ++ (place.after s).trace t := by
  induction s generalizing place with
  | nil => rfl
  | cons c s ih => simp [trace, ih]

/-! ## Places that read a text alike -/

/-- Both places read the same of a text, and are inside a tag behind it or not. -/
def Agree (p q : Place) (s : List Char) : Prop :=
  p.trace s = q.trace s ∧ (p.after s).inside = (q.after s).inside

theorem agree_of_step {p q : Place} {c : Char} {s : List Char} (inside : p.inside = q.inside)
    (marks : p.mark c = q.mark c) (agree : Agree (p.step c) (q.step c) s) : Agree p q (c :: s) := by
  refine ⟨?_, agree.2⟩
  rw [trace, trace, inside, marks, agree.1]

theorem agree_refl (p : Place) (s : List Char) : Agree p p s := ⟨rfl, rfl⟩

/-- A bracket that no brace follows closes nothing. -/
theorem agree_bracket {s : List Char} (other : s.head? ≠ some '}') :
    Agree bracket (tag .bare) s := by
  cases s with
  | nil => exact ⟨rfl, rfl⟩
  | cons c s =>
    have brace : c ≠ '}' := by simpa using other
    refine agree_of_step rfl (by simp [mark, brace]) ?_
    simp only [step, brace, if_false]
    exact agree_refl _ s

theorem agree_brace {s : List Char} (other : s.head? ≠ some '[') :
    Agree brace (text false) s := by
  cases s with
  | nil => exact ⟨rfl, rfl⟩
  | cons c s =>
    have bracket : c ≠ '[' := by simpa using other
    refine agree_of_step rfl rfl ?_
    simp only [step, bracket, if_false]
    exact agree_refl _ s

theorem agree_dollar {s : List Char} (literal : opens ('$' :: s) = false) :
    Agree dollar (text false) s := by
  cases s with
  | nil => exact ⟨rfl, rfl⟩
  | cons c s =>
    refine agree_of_step rfl rfl ?_
    by_cases brace : c = '{'
    · subst brace
      refine agree_brace fun next => ?_
      obtain ⟨rest, rfl⟩ := List.head?_eq_some_iff.1 next
      simp [opens] at literal
    · simp only [step, brace, if_false]
      exact agree_refl _ s

theorem agree_literal {odd : Bool} {c : Char} {s : List Char}
    (literal : ¬(opens (c :: s) && !odd) = true) :
    Agree ((text odd).step c) (text (oddAfter odd c)) s := by
  by_cases live : c = '$' ∧ odd = false
  · obtain ⟨rfl, rfl⟩ := live
    exact agree_dollar (by simpa using literal)
  · rw [show (text odd).step c = text (oddAfter odd c) from if_neg live]
    exact agree_refl _ s

theorem agree_inner {state : Quoting} {c : Char} {s : List Char}
    (goes : ¬(state = .bare ∧ closes (c :: s) = true)) :
    Agree ((tag state).step c) (tag (state.step c)) s := by
  by_cases closing : state = .bare ∧ c = ']'
  · obtain ⟨rfl, rfl⟩ := closing
    refine agree_bracket fun next => ?_
    obtain ⟨rest, rfl⟩ := List.head?_eq_some_iff.1 next
    exact goes ⟨rfl, rfl⟩
  · rw [show (tag state).step c = tag (state.step c) from if_neg closing]
    exact agree_refl _ s

/-! ## The bodies of tags -/

/-- The bodies as they are read inside tags. -/
def marked (bodies : List (List Char)) : List (Option Char) :=
  bodies.flatMap fun body => body.map some ++ [some ']', none]

/-- Texts in which each of two values comes first fall apart there alike. -/
theorem append_cons_inj {α : Type} {s t rest others : List α} {a b : α} (left : b ∉ s) (right : a ∉ t) :
    s ++ a :: rest = t ++ b :: others ↔ s = t ∧ a = b ∧ rest = others := by
  constructor
  · intro same
    induction s generalizing t with
    | nil =>
      cases t with
      | nil => exact ⟨rfl, List.cons.inj same⟩
      | cons d t => exact absurd (List.cons.inj same).1 (fun first => right (by simp [first]))
    | cons c s ih =>
      cases t with
      | nil => exact absurd (List.cons.inj same).1 (fun first => left (by simp [first]))
      | cons d t =>
        simp only [List.cons_append, List.cons.injEq] at same
        obtain ⟨rfl, same⟩ := same
        obtain ⟨rfl, last, tail⟩ :=
          ih (fun member => left (.tail _ member)) (fun member => right (.tail _ member)) same
        exact ⟨rfl, last, tail⟩
  · rintro ⟨rfl, rfl, rfl⟩
    rfl

theorem marked_injective : Function.Injective marked := by
  intro bodies others same
  induction bodies generalizing others with
  | nil => cases others with
    | nil => rfl
    | cons other others => simp [marked] at same
  | cons body bodies ih => cases others with
    | nil => simp [marked] at same
    | cons other others =>
      -- The closer of the first body is the first of all.
      have regroup (body : List Char) (bodies : List (List Char)) :
          marked (body :: bodies) = (body.map some ++ [some ']']) ++ none :: marked bodies := by
        simp [marked]
      have unmarked (body : List Char) : none ∉ body.map some ++ [some ']'] := by simp
      rw [regroup, regroup, append_cons_inj (unmarked body) (unmarked other)] at same
      obtain ⟨first, -, later⟩ := same
      rw [List.map_injective_iff.2 (fun _ _ => Option.some.inj) (List.append_cancel_right first), ih later]

theorem trace_of_splitTag {state : Quoting} {s body rest : List Char}
    (found : splitTag state s = some (body, rest)) :
    (tag state).trace s = body.map some ++ [some ']', none] ++ (text false).trace rest ∧
      ((tag state).after s).inside = ((text false).after rest).inside := by
  induction s generalizing state body with
  | nil => simp [splitTag] at found
  | cons c s ih =>
    rcases splitTag_cons found with ⟨rfl, rfl, eq⟩ | ⟨goes, inner, rfl, later⟩
    · rw [eq]
      exact ⟨rfl, rfl⟩
    · obtain ⟨traced, ended⟩ := ih later
      obtain ⟨agree, same⟩ := agree_inner goes
      exact ⟨by simp [trace, inside, mark, agree, traced], by rw [after_cons, same, ended]⟩

theorem inside_of_splitTag {state : Quoting} {s : List Char} (endless : splitTag state s = none) :
    ((tag state).after s).inside = true := by
  induction s generalizing state with
  | nil => rfl
  | cons c s ih =>
    by_cases stops : state = .bare ∧ closes (c :: s) = true
    · simp [splitTag, stops] at endless
    · rw [splitTag_go stops, Option.map_eq_none_iff] at endless
      rw [after_cons, (agree_inner stops).2, ih endless]

theorem agree_splitText (odd : Bool) (s : List Char) :
    (text odd).trace s = (text (oddBehind odd (splitText odd s).1)).trace (splitText odd s).2 ∧
      ((text odd).after s).inside =
        ((text (oddBehind odd (splitText odd s).1)).after (splitText odd s).2).inside := by
  induction s generalizing odd with
  | nil => exact ⟨rfl, rfl⟩
  | cons c s ih =>
    rw [splitText]
    split
    · exact ⟨rfl, rfl⟩
    · rename_i literal
      obtain ⟨agree, same⟩ := agree_literal literal
      obtain ⟨traced, ended⟩ := ih (oddAfter odd c)
      exact ⟨by rw [trace, agree, traced]; rfl, by rw [after_cons, same, ended]; rfl⟩

/-- Behind literal text nothing has been read inside tags yet. -/
theorem agree_text (s : List Char) :
    (text false).trace s = (text false).trace (splitText false s).2 ∧
      ((text false).after s).inside = ((text false).after (splitText false s).2).inside := by
  obtain ⟨traced, ended⟩ := agree_splitText false s
  rcases Span.splitText_stops false s with none | ⟨-, even⟩
  · rw [traced, ended, none]
    exact ⟨rfl, rfl⟩
  · rw [traced, ended, even]
    exact ⟨rfl, rfl⟩

/-! ## All spans -/

theorem inside_after (s : List Char) : ((text false).after s).inside = Span.inside s := by
  rw [Span.inside]
  fun_induction Span.spans s with
  | case1 => rfl
  | case2 c s opening endless =>
    obtain ⟨t, eq⟩ := opens_iff.1 opening
    obtain ⟨rfl, rfl⟩ := List.cons.inj eq
    exact inside_of_splitTag endless
  | case3 c s opening body rest found ih =>
    obtain ⟨t, eq⟩ := opens_iff.1 opening
    obtain ⟨rfl, rfl⟩ := List.cons.inj eq
    exact (trace_of_splitTag found).2.trans ih
  | case4 c s literal ih => exact (agree_text (c :: s)).2.trans ih

theorem trace_eq_marked {s : List Char} (outside : Span.inside s = false) :
    (text false).trace s = marked (Span.bodies s) := by
  rw [Span.inside] at outside
  rw [Span.bodies]
  fun_induction Span.spans s with
  | case1 => rfl
  | case2 c s opening endless => simp [Span.endless] at outside
  | case3 c s opening body rest found ih =>
    obtain ⟨t, eq⟩ := opens_iff.1 opening
    obtain ⟨rfl, rfl⟩ := List.cons.inj eq
    have traced := (trace_of_splitTag found).1
    rw [ih outside] at traced
    exact traced
  | case4 c s literal ih =>
    rw [(agree_text (c :: s)).1]
    exact ih outside

end Place

end RequestTemplate
