import RequestTemplate.Delimiter
import RequestTemplate.Template.Tag

/-!
# Spans of source

A source falls into spans: literal text, tags, and at most one tag at the end
that is never closed. Text ends at the next live opener. A tag ends at the first
closer outside quoted text; in quoted text a backslash hides the character after
it. `source_spans` says that the spans partition the source.
-/

namespace RequestTemplate
open Delimiter (opens opens_iff closes oddAfter)

inductive Span where
  | text (source : List Char)
  | tag (body : List Char)
  /-- A tag with its opener that runs to the end of the source. -/
  | unclosed (source : List Char)
  deriving DecidableEq, Inhabited

namespace Span

def opener : List Char := ['$', '{', '[']

def closer : List Char := [']', '}']

def source : Span → List Char
  | text source => source
  | tag body => opener ++ body ++ closer
  | unclosed source => source

/-- Where a scan stands with respect to quoted text. -/
inductive Quoting where
  | bare
  | within (quote : Char)
  /-- Behind a backslash in quoted text. -/
  | skipping (quote : Char)
  deriving DecidableEq, Inhabited

def Quoting.step : Quoting → Char → Quoting
  | bare, c => if Tag.isQuote c then within c else bare
  | within q, c => if c = '\\' then skipping q else if c = q then bare else within q
  | skipping q, _ => within q

/-- The body of a tag, and the text behind its closer. -/
def splitTag (state : Quoting) : List Char → Option (List Char × List Char)
  | [] => none
  | c :: rest =>
    if state = .bare ∧ closes (c :: rest) = true then some ([], rest.tail)
    else (splitTag (state.step c) rest).map fun (body, after) => (c :: body, after)

/-- The text before the next live opener, and the text from that opener on. -/
def splitText (odd : Bool) : List Char → List Char × List Char
  | [] => ([], [])
  | c :: rest =>
    if opens (c :: rest) && !odd then ([], c :: rest)
    else
      let (before, after) := splitText (oddAfter odd c) rest
      (c :: before, after)

theorem length_of_splitTag {state : Quoting} {s body rest : List Char}
    (h : splitTag state s = some (body, rest)) : rest.length < s.length := by
  induction s generalizing state body rest with
  | nil => simp [splitTag] at h
  | cons c s ih =>
    simp only [splitTag] at h
    split at h
    · simp only [Option.some.injEq, Prod.mk.injEq] at h
      simp only [← h.2, List.length_tail, List.length_cons]
      omega
    · obtain ⟨⟨b, r⟩, found, heq⟩ := Option.map_eq_some_iff.1 h
      have := ih found
      simp only [Prod.mk.injEq] at heq
      simp only [← heq.2, List.length_cons]
      omega

theorem length_splitText_le (odd : Bool) (s : List Char) :
    (splitText odd s).2.length ≤ s.length := by
  induction s generalizing odd with
  | nil => simp [splitText]
  | cons c s ih =>
    simp only [splitText]
    split
    · simp
    · have := ih (oddAfter odd c)
      simp only [List.length_cons]
      omega

theorem length_splitText_lt {c : Char} {s : List Char} (h : opens (c :: s) = false) :
    (splitText false (c :: s)).2.length < (c :: s).length := by
  have := length_splitText_le (oddAfter false c) s
  simp only [splitText, h, Bool.false_and, Bool.false_eq_true, if_false, List.length_cons]
  omega

/-- The spans of a source, which stands behind no backslash. -/
def spans (s : List Char) : List Span :=
  match s with
  | [] => []
  | c :: s =>
    if _ : opens (c :: s) then
      match _ : splitTag .bare (s.drop 2) with
      | none => [.unclosed (c :: s)]
      | some (body, rest) => .tag body :: spans rest
    else .text (splitText false (c :: s)).1 :: spans (splitText false (c :: s)).2
termination_by s.length
decreasing_by
  · rename_i found
    have := length_of_splitTag found
    simp only [List.length_drop] at this
    simp only [List.length_cons]
    omega
  · rename_i literal
    exact length_splitText_lt (by simpa using literal)

/-! ## The spans partition the source -/

theorem splitText_append (odd : Bool) (s : List Char) :
    (splitText odd s).1 ++ (splitText odd s).2 = s := by
  induction s generalizing odd with
  | nil => simp [splitText]
  | cons c s ih =>
    simp only [splitText]
    split
    · simp
    · simp [ih]

theorem closes_iff {s : List Char} : closes s = true ↔ ∃ rest, s = closer ++ rest := by
  constructor
  · intro h
    unfold closes at h
    split at h
    · exact ⟨_, rfl⟩
    · simp at h
  · rintro ⟨rest, rfl⟩
    rfl

theorem append_of_splitTag {state : Quoting} {s body rest : List Char}
    (h : splitTag state s = some (body, rest)) : body ++ closer ++ rest = s := by
  induction s generalizing state body rest with
  | nil => simp [splitTag] at h
  | cons c s ih =>
    simp only [splitTag] at h
    split at h
    · rename_i stops
      obtain ⟨r, eq⟩ := closes_iff.1 stops.2
      simp only [Option.some.injEq, Prod.mk.injEq] at h
      simp only [closer, List.cons_append, List.nil_append, List.cons.injEq] at eq
      obtain ⟨rfl, rfl⟩ := eq
      simp [← h.1, ← h.2, closer]
    · obtain ⟨⟨b, r⟩, found, heq⟩ := Option.map_eq_some_iff.1 h
      have := ih found
      simp only [Prod.mk.injEq] at heq
      simp [← heq.1, ← heq.2, ← this]

theorem source_spans (s : List Char) : (spans s).flatMap source = s := by
  fun_induction spans s with
  | case1 => rfl
  | case2 c s live none => simp [source]
  | case3 c s live body rest found ih =>
    obtain ⟨r, eq⟩ := opens_iff.1 live
    have joined := append_of_splitTag found
    obtain ⟨rfl, rfl⟩ := List.cons.inj eq
    simp only [List.drop_succ_cons, List.drop_zero] at joined
    simp [source, opener, ← joined, ih]
  | case4 c s live ih => simp [source, ih, splitText_append]

end Span

end RequestTemplate
