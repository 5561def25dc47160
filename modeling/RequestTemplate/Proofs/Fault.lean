import RequestTemplate.Proofs.Boundary
import RequestTemplate.Proofs.Concatenation
import RequestTemplate.Proofs.Unread

/-!
# Where reading fails

A source that is refused has a first bad tag. What stands before it is read, and the
error points to its opener if it never closes, and into its body otherwise. A tag that
closes is bad whatever follows it (`fault_of_parse`).
-/

namespace RequestTemplate
open Delimiter

namespace Span

variable {span : Span} {before after rest : List Span} {s : List Char}

theorem Follows.even (follows : Follows s (span :: rest)) : oddBehind false s = false := by
  cases span with
  | text t => exact follows.elim
  | tag body => exact follows
  | unclosed t => exact follows

/-- Literal text and tags may also end a source. -/
theorem proper_of_append (proper : Proper (before ++ rest)) : Proper before := by
  induction before with
  | nil => trivial
  | cons first before ih =>
    cases first with
    | tag body => exact ⟨proper.1, ih proper.2⟩
    | text s =>
      obtain ⟨filled, quiet, follows, proper⟩ := proper
      refine ⟨filled, quiet, ?_, ih proper⟩
      cases before with
      | nil => trivial
      | cons next before => cases next <;> exact follows
    | unclosed s =>
      obtain ⟨opening, endless, none⟩ := proper
      obtain ⟨rfl, -⟩ := List.append_eq_nil_iff.1 none
      exact ⟨opening, endless, rfl⟩

theorem proper_behind (proper : Proper (before ++ rest)) : Proper rest := by
  induction before with
  | nil => exact proper
  | cons first before ih =>
    cases first with
    | tag body => exact ih proper.2
    | text s => exact ih proper.2.2.2
    | unclosed s =>
      obtain ⟨-, -, none⟩ := proper
      obtain ⟨-, rfl⟩ := List.append_eq_nil_iff.1 none
      trivial

/-- No run of backslashes is open where a span begins. -/
theorem even_of_proper (proper : Proper (before ++ span :: after)) :
    oddBehind false (before.flatMap source) = false := by
  induction before with
  | nil => rfl
  | cons first before ih =>
    rw [List.flatMap_cons, oddBehind_append]
    cases first with
    | tag body => rw [oddBehind_of_sealed (sealed_source_tag body), ih proper.2]
    | unclosed s =>
      obtain ⟨-, -, none⟩ := proper
      simp at none
    | text s =>
      -- what stands behind literal text has a live opener, so no run is open there
      obtain ⟨-, -, follows, proper⟩ := proper
      have even : oddBehind false s = false := by
        cases before with
        | nil => exact follows.even
        | cons next before => exact follows.even
      rw [source, even, ih proper]

end Span

namespace Template

/-- A tag begins at this position of the source, and what stands before it is read. -/
structure BadTag (text : String) (start : Nat) : Prop where
  opening : opens (text.toList.drop start) = true
  even : Even (backslashes (text.toList.take start))
  read : ∃ template, parse (String.ofList (text.toList.take start)) = .ok template

/-- What an error says of the tag that begins at this position. -/
inductive Fault (text : String) (start : Nat) (e : ParseError) : Prop
  /-- No closer behind the opener stands outside quoted text. -/
  | unclosed
      (endless : ∀ inner rest, text.toList.drop (start + 3) = inner ++ Span.closer ++ rest → ¬ Span.Outside inner)
      (reported : e = ⟨.unterminatedTag, some (start : Int)⟩)
  /-- The tag closes and its body is refused. The error points to what is unread of the
      body, and stays as it is whatever text follows the source. -/
  | malformed {body : List Char} {refusal : Tag.Refusal} {position : Nat}
      (closes : Span.FirstCloser (text.toList.drop (start + 3)) body)
      (refused : Tag.read body = .error refusal)
      (reported : e = ⟨refusal.reason, some (position : Int)⟩)
      (inside : start + 3 ≤ position ∧ position ≤ start + 3 + body.length ∧ start + 3 + body.length ≤ text.length)
      (unread : position + refusal.unread = start + 3 + body.length)
      (lasting : ∀ more, parse (text ++ more) = .error e)

variable {start : Nat} {spans : List Span} {e : ParseError}

/-- A span that is no well formed tag, and the error that it gives at this position. -/
def Refuses (start : Nat) (e : ParseError) : Span → Prop
  | .text _ => False
  | .tag body => Tag.readAt (start + Span.opener.length : Nat) body = .error e
  | .unclosed _ => e = ⟨.unterminatedTag, some (start : Int)⟩

theorem ofSpans_of_refuses {span : Span} (refuses : Refuses start e span) (rest : List Span) :
    ofSpans start (span :: rest) = .error e := by
  cases span with
  | text s => exact refuses.elim
  | tag body =>
    have refused : Tag.readAt (start + Span.opener.length : Nat) body = .error e := refuses
    rw [ofSpans, refused]
    rfl
  | unclosed s => rw [ofSpans, show e = _ from refuses]

/-- The spans before the one that is refused are read. -/
theorem exists_of_ofSpans_error (refused : ofSpans start spans = .error e) :
    ∃ before span after template, spans = before ++ span :: after ∧ ofSpans start before = .ok template ∧
      Refuses (start + (before.flatMap Span.source).length) e span := by
  induction spans generalizing start with
  | nil => cases refused
  | cons span rest ih =>
    cases span with
    | unclosed s => exact ⟨[], .unclosed s, rest, [], rfl, rfl, (Except.error.inj refused).symm⟩
    | text s =>
      cases later : ofSpans (start + s.length) rest with
      | ok others => exact absurd (refused.symm.trans (ofSpans_text.2 ⟨others, later, rfl⟩)) (by simp)
      | error other =>
        rw [ofSpans, later] at refused
        obtain rfl := Except.error.inj refused
        obtain ⟨before, span, after, template, rfl, read, refuses⟩ := ih later
        refine ⟨.text s :: before, span, after, _, rfl, ofSpans_text.2 ⟨template, read, rfl⟩, ?_⟩
        rwa [List.flatMap_cons, List.length_append, ← Nat.add_assoc]
    | tag body =>
      cases here : Tag.readAt (start + Span.opener.length : Nat) body with
      | error other =>
        rw [ofSpans, here] at refused
        obtain rfl := Except.error.inj refused
        exact ⟨[], .tag body, rest, [], rfl, rfl, here⟩
      | ok value =>
        cases later : ofSpans (start + (Span.tag body).source.length) rest with
        | ok others =>
          exact absurd (refused.symm.trans (ofSpans_tag.2 ⟨value, others, read_of_readAt here, later, rfl⟩)) (by simp)
        | error other =>
          rw [ofSpans, here] at refused
          simp only [later] at refused
          obtain rfl := Except.error.inj refused
          obtain ⟨before, span, after, template, rfl, read, refuses⟩ := ih later
          refine ⟨.tag body :: before, span, after, _, rfl,
            ofSpans_tag.2 ⟨value, template, read_of_readAt here, read, rfl⟩, ?_⟩
          rwa [List.flatMap_cons, List.length_append, ← Nat.add_assoc]

/-- The source falls into the spans that are read before a span, the span, and what
    stands behind it. -/
structure Cut (text : String) (before : List Span) (span : Span) (after : List Span) : Prop where
  whole : text.toList = before.flatMap Span.source ++ (span :: after).flatMap Span.source
  proper : Span.Proper (before ++ span :: after)
  read : ∃ template, ofSpans 0 before = .ok template

namespace Cut

variable {text : String} {before after : List Span} {span : Span} {s body : List Char}

theorem drop (cut : Cut text before span after) (n : Nat) :
    text.toList.drop ((before.flatMap Span.source).length + n) = ((span :: after).flatMap Span.source).drop n := by
  rw [cut.whole, List.drop_length_add_append]

/-- What stands before a span is read on its own. -/
theorem badTag (cut : Cut text before span after) (opening : opens ((span :: after).flatMap Span.source) = true) :
    BadTag text (before.flatMap Span.source).length where
  opening := by rwa [cut.whole, List.drop_left]
  even := by
    rw [cut.whole, List.take_left, even_backslashes_iff]
    exact Span.even_of_proper cut.proper
  read := by
    obtain ⟨template, read⟩ := cut.read
    refine ⟨template, ?_⟩
    rw [cut.whole, List.take_left, parse, String.toList_ofList,
      Span.spans_of_proper (Span.proper_of_append cut.proper), read]

/-- A tag that closes is refused in the same way whatever follows it. -/
theorem refused_append (cut : Cut text before (.tag body) after)
    (refuses : Refuses (before.flatMap Span.source).length e (.tag body)) (more : String) :
    parse (text ++ more) = .error e := by
  have proper : Span.Proper (before ++ [Span.tag body] ++ after) := by
    rw [List.append_assoc]
    exact cut.proper
  -- the spans up to the refused one end in a tag, so what stands behind them is cut on its own
  have again := Span.spans_append (Span.proper_of_append proper) (by simp [Span.Ended])
    (after.flatMap Span.source ++ more.toList)
  have joined : (text ++ more).toList =
      (before ++ [Span.tag body]).flatMap Span.source ++ (after.flatMap Span.source ++ more.toList) := by
    simp [cut.whole]
  obtain ⟨template, read⟩ := cut.read
  rw [parse, joined, again, List.append_assoc, ofSpans_append read, List.singleton_append, Nat.zero_add,
    ofSpans_of_refuses refuses]
  rfl

theorem fault_tag (cut : Cut text before (.tag body) after)
    (refuses : Refuses (before.flatMap Span.source).length e (.tag body)) :
    Fault text (before.flatMap Span.source).length e := by
  have closed := (Span.proper_behind cut.proper).1
  have closes : Span.FirstCloser (text.toList.drop ((before.flatMap Span.source).length + 3)) body := by
    rw [cut.drop]
    exact Span.firstCloser_iff.2 ⟨_, Span.splitTag_of_closed closed (after.flatMap Span.source)⟩
  obtain ⟨refusal, position, refused, reported, first, unread⟩ := Tag.exists_of_readAt_error refuses
  have opener : Span.opener.length = 3 := rfl
  obtain ⟨rest, split⟩ := closes.closes
  have long := congrArg List.length split
  simp only [List.length_drop, List.length_append, String.length_toList, Span.closer, List.length_cons] at long
  exact .malformed closes refused reported (by omega) (by omega) (cut.refused_append refuses)

theorem fault_unclosed (cut : Cut text before (.unclosed s) after)
    (refuses : Refuses (before.flatMap Span.source).length e (.unclosed s)) :
    Fault text (before.flatMap Span.source).length e := by
  obtain ⟨-, endless, rfl⟩ := Span.proper_behind cut.proper
  refine .unclosed (fun inner rest split outside => ?_) refuses
  obtain ⟨body, later, found⟩ := Span.exists_splitTag (Span.Quoting.outside_iff.1 outside) rest
  rw [← split, cut.drop] at found
  simp [Span.source, endless] at found

end Cut

theorem exists_cut_of_parse {text : String} (refused : parse text = .error e) :
    ∃ before span after, Cut text before span after ∧ Refuses (before.flatMap Span.source).length e span := by
  obtain ⟨before, span, after, template, split, read, refuses⟩ := exists_of_ofSpans_error refused
  have proper := Span.proper_spans text.toList
  have whole := Span.source_spans text.toList
  rw [split] at proper whole
  rw [List.flatMap_append] at whole
  rw [Nat.zero_add] at refuses
  exact ⟨before, span, after, ⟨whole.symm, proper, template, read⟩, refuses⟩

/-- The error of a source points to its first tag that is not well formed. -/
theorem fault_of_parse {text : String} (refused : parse text = .error e) :
    ∃ start, BadTag text start ∧ Fault text start e := by
  obtain ⟨before, span, after, cut, refuses⟩ := exists_cut_of_parse refused
  refine ⟨(before.flatMap Span.source).length, ?_⟩
  cases span with
  | text s => exact refuses.elim
  | tag body => exact ⟨cut.badTag rfl, cut.fault_tag refuses⟩
  | unclosed s =>
    have opening := opens_append_of_opens (Span.proper_behind cut.proper).1 (after.flatMap Span.source)
    exact ⟨cut.badTag opening, cut.fault_unclosed refuses⟩

/-- A tag with text behind its name stands between two tags, and a tag has its closers
    in quoted text that never ends. -/
theorem fault_of_parse_second :
    let malformed := "x $\x7b[ a ]\x7d $\x7b[ b c ]\x7d $\x7b[ d ]\x7d"
    let unclosed := "\\$\x7b[ $\x7b[ a ]\x7d $\x7b[ f(v: ']\x7d) \"]\x7d"
    (parse malformed = .error ⟨.unexpectedCharacter 'c', some 17⟩ ∧
      ∃ start, BadTag malformed start ∧ Fault malformed start ⟨.unexpectedCharacter 'c', some 17⟩) ∧
    (parse unclosed = .error ⟨.unterminatedTag, some 14⟩ ∧
      ∃ start, BadTag unclosed start ∧ Fault unclosed start ⟨.unterminatedTag, some 14⟩) := by
  intro malformed unclosed
  have first : parse malformed = .error ⟨.unexpectedCharacter 'c', some 17⟩ := by cbv
  have second : parse unclosed = .error ⟨.unterminatedTag, some 14⟩ := by cbv
  exact ⟨⟨first, fault_of_parse first⟩, second, fault_of_parse second⟩

end Template

end RequestTemplate
