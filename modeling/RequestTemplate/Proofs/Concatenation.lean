import RequestTemplate.Proofs.Tags

/-!
# Templates one after the other

Behind a tag a source begins anew: neither backslashes nor quotes reach across its
closer. So a source that is empty or ends in a tag can be read apart from what follows
it, whether that is read or refused (`parse_append`).
-/

namespace RequestTemplate
open Delimiter

/-- The error in a source that stands behind `n` characters. -/
def ParseError.shift (n : Nat) (e : ParseError) : ParseError :=
  { e with position := e.position.map (· + (n : Int)) }

namespace Span

/-- No span is there, or the last one is a tag. -/
def Ended (spans : List Span) : Prop := ∀ span ∈ spans.getLast?, ∃ body, span = tag body

variable {span : Span} {spans others : List Span} {s : List Char}

theorem Ended.tail (ended : Ended (span :: spans)) : Ended spans := by
  cases spans with
  | nil => simp [Ended]
  | cons next rest => simpa [Ended, List.getLast?_cons_cons] using ended

theorem Ended.ne_nil (ended : Ended (text s :: spans)) : spans ≠ [] := by
  rintro rfl
  obtain ⟨body, other⟩ := ended (text s) rfl
  cases other

/-- What stands behind the last tag is cut on its own. -/
theorem proper_append (proper : Proper spans) (ended : Ended spans) (later : Proper others) :
    Proper (spans ++ others) := by
  induction spans with
  | nil => exact later
  | cons span rest ih =>
    cases span with
    | tag body => exact ⟨proper.1, ih proper.2 ended.tail⟩
    | text s =>
      obtain ⟨filled, quiet, follows, proper⟩ := proper
      obtain ⟨next, rest, rfl⟩ := List.exists_cons_of_ne_nil ended.ne_nil
      refine ⟨filled, quiet, ?_, ih proper ended.tail⟩
      cases next <;> exact follows
    | unclosed s =>
      obtain ⟨-, -, rfl⟩ := proper
      obtain ⟨body, other⟩ := ended (unclosed s) rfl
      cases other

theorem spans_append (proper : Proper spans) (ended : Ended spans) (s : List Char) :
    Span.spans (spans.flatMap source ++ s) = spans ++ Span.spans s := by
  have whole : spans.flatMap source ++ s = (spans ++ Span.spans s).flatMap source := by
    rw [List.flatMap_append, source_spans]
  rw [whole]
  exact spans_of_proper (proper_append proper ended (proper_spans s))

end Span

namespace Template

/-- The template is empty or ends in a tag. -/
def Ended (template : Template) : Prop := ∀ token ∈ template.getLast?, token.isTag = true

variable {template : Template} {spans : List Span} {start : Nat}

theorem ended_of_spells (spells : Spells template spans) (ended : template.Ended) : Span.Ended spans := by
  induction spells with
  | nil => simp [Span.Ended]
  | @cons token span template spans head tail ih =>
    cases tail with
    | nil =>
      have tagged := ended token rfl
      cases head with
      | raw shown written => cases tagged
      | tag read written => simp [Span.Ended]
    | cons next later =>
      rw [Ended, List.getLast?_cons_cons] at ended
      rw [Span.Ended, List.getLast?_cons_cons]
      exact ih ended

theorem readAt_shift (offset : Int) (n : Nat) (body : List Char) :
    Tag.readAt (offset + n) body = (Tag.readAt offset body).mapError (ParseError.shift n) := by
  rw [Tag.readAt, Tag.readAt]
  cases Tag.read body with
  | ok value => rfl
  | error refusal => simp [Except.mapError, ParseError.shift, Int.add_right_comm]

/-- Positions count from where the source starts. -/
theorem ofSpans_shift (start n : Nat) (spans : List Span) :
    ofSpans (start + n) spans = (ofSpans start spans).mapError (ParseError.shift n) := by
  induction spans generalizing start with
  | nil => rfl
  | cons span rest ih =>
    cases span with
    | text s =>
      rw [ofSpans, ofSpans, Nat.add_right_comm, ih]
      cases ofSpans (start + s.length) rest <;> rfl
    | tag body =>
      simp only [ofSpans]
      rw [Nat.add_right_comm start n (Span.tag body).source.length, ih, Nat.add_right_comm, Int.natCast_add, readAt_shift]
      cases Tag.readAt ↑(start + Span.opener.length) body with
      | error e => rfl
      | ok value => cases ofSpans (start + (Span.tag body).source.length) rest <;> rfl
    | unclosed s => rfl

/-- Reading goes on behind spans that are read. -/
theorem ofSpans_append (read : ofSpans start spans = .ok template) (others : List Span) :
    ofSpans start (spans ++ others) =
      (ofSpans (start + (spans.flatMap Span.source).length) others).map (template ++ ·) := by
  induction spans generalizing start template with
  | nil =>
    obtain rfl : [] = template := Except.ok.inj read
    rw [List.nil_append, List.flatMap_nil, List.length_nil, Nat.add_zero]
    cases ofSpans start others <;> rfl
  | cons span rest ih =>
    cases span with
    | unclosed s => exact absurd read (by simp [ofSpans])
    | text s =>
      obtain ⟨tokens, later, rfl⟩ := ofSpans_text.1 read
      rw [List.cons_append, ofSpans, ih later, List.flatMap_cons, List.length_append, Nat.add_assoc, Span.source]
      cases ofSpans (start + (s.length + (rest.flatMap Span.source).length)) others <;> rfl
    | tag body =>
      obtain ⟨value, tokens, accepted, later, rfl⟩ := ofSpans_tag.1 read
      rw [List.cons_append, ofSpans, readAt_of_read accepted, List.flatMap_cons, List.length_append, ← Nat.add_assoc]
      simp only [ih later]
      cases ofSpans (start + (Span.tag body).source.length + (rest.flatMap Span.source).length) others <;> rfl

/-- A source that is empty or ends in a tag is read apart from what follows it. -/
theorem parse_append {text : String} (read : parse text = .ok template) (ended : template.Ended) (more : String) :
    parse (text ++ more) =
      match parse more with
      | .ok others => .ok (template ++ others)
      | .error e => .error (e.shift text.length) := by
  have proper := Span.proper_spans text.toList
  have cut := Span.spans_append proper (ended_of_spells (spells_of_parse read).1 ended) more.toList
  have onward := ofSpans_append read (Span.spans more.toList)
  rw [Span.source_spans] at cut onward
  rw [ofSpans_shift, ← cut, ← String.toList_append, ← parse, ← parse] at onward
  rw [onward]
  cases parse more <;> rfl

/-- The tag holds a closer in quoted text and stands behind backslashes. A backslash behind
    it hides an opener, and a quote behind it opens nothing. -/
theorem parse_append_delimiters :
    let text := "a\\\\$\x7b[ f(v: \"]\x7d\\\"\") ]\x7d"
    let template : Template :=
      [.raw "a\\\\", .tag (.call "f" [⟨"v", .text "]\x7d\""⟩]) (some "$\x7b[ f(v: \"]\x7d\\\"\") ]\x7d")]
    parse text = .ok template ∧ template.Ended ∧
      parse (text ++ "\\$\x7b[ x ]\x7d") = .ok (template ++ [.raw "$\x7b[ x ]\x7d"]) ∧
      parse (text ++ "\"$\x7b[ f(v: 'x' w) ]\x7d") = .error ⟨.expectedSeparator 'w', some 36⟩ := by
  intro text template
  have read : parse text = .ok template := by cbv
  have ended : template.Ended := by simp [Ended, template, Token.isTag]
  exact ⟨read, ended, (parse_append read ended _).trans (by cbv), (parse_append read ended _).trans (by cbv)⟩

end Template

end RequestTemplate
