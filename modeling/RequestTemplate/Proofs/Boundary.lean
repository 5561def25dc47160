import RequestTemplate.Proofs.Closer
import RequestTemplate.Proofs.Escape
import RequestTemplate.Proofs.Joined
import RequestTemplate.Proofs.Pieces
import RequestTemplate.Proofs.Tags

/-!
# Where tokens begin and end

`Bounded` says by positions alone where the tokens of a source stand: a tag begins at
every live opener that no tag before it covers, and at no other place, it ends at the
first closer outside quoted text, and between the tags stands literal text, one token
for each stretch. A source is read as a template if and only if it falls into the
tokens of the template in this way (`parse_eq_ok_iff_bounded`).
-/

namespace RequestTemplate
open Delimiter

namespace Span

/-! ## Positions of spans -/

/-- The span begins at this position of the source. -/
inductive At : List Span → Nat → Span → Prop
  | here {span : Span} {rest : List Span} : At (span :: rest) 0 span
  | later {first span : Span} {rest : List Span} {i : Nat} (behind : At rest i span) :
      At (first :: rest) (first.source.length + i) span

/-- A tag that begins before the position ends there at the latest. -/
def Clear (spans : List Span) (i : Nat) : Prop :=
  ∀ j body, At spans j (.tag body) → j < i → j + (Span.tag body).source.length ≤ i

/-- What must hold at a position of a source for a tag to begin there. -/
structure Begins (s : List Char) (spans : List Span) (i : Nat) : Prop where
  opening : opens (s.drop i) = true
  even : Even (backslashes (s.take i))
  clear : Clear spans i

/-- The tags among the spans begin and end where the source says. -/
structure Positioned (s : List Char) (spans : List Span) : Prop where
  starts (i : Nat) : (∃ body, At spans i (.tag body)) ↔ Begins s spans i
  ends (i : Nat) (body : List Char) (stands : At spans i (.tag body)) :
    FirstCloser (s.drop (i + opener.length)) body

theorem at_cons_iff {first span : Span} {rest : List Span} {i : Nat} :
    At (first :: rest) i span ↔ (i = 0 ∧ span = first) ∨ ∃ k, i = first.source.length + k ∧ At rest k span := by
  constructor
  · intro stands
    cases stands with
    | here => exact .inl ⟨rfl, rfl⟩
    | later behind => exact .inr ⟨_, rfl, behind⟩
  · rintro (⟨rfl, rfl⟩ | ⟨k, rfl, behind⟩)
    · exact .here
    · exact .later behind

/-- Behind a span that is not empty, positions count from its end. -/
theorem at_later_iff {first span : Span} {rest : List Span} {k : Nat} (filled : first.source ≠ []) :
    At (first :: rest) (first.source.length + k) span ↔ At rest k span := by
  have long := List.length_pos_iff.2 filled
  rw [at_cons_iff]
  constructor
  · rintro (⟨none, -⟩ | ⟨i, same, behind⟩)
    · omega
    · rwa [Nat.add_left_cancel same]
  · exact fun behind => .inr ⟨k, rfl, behind⟩

/-- The spans before a span are as long as its position says. -/
theorem drop_of_at {spans : List Span} {i : Nat} {span : Span} (stands : At spans i span) :
    ∃ rest, (spans.flatMap source).drop i = span.source ++ rest := by
  induction stands with
  | @here span rest => exact ⟨rest.flatMap source, by simp⟩
  | later behind ih =>
    obtain ⟨rest, eq⟩ := ih
    exact ⟨rest, by rw [List.flatMap_cons, List.drop_length_add_append, eq]⟩

theorem closed_of_at {spans : List Span} {i : Nat} {body : List Char} (proper : Proper spans)
    (stands : At spans i (.tag body)) : Closed body := by
  generalize eq : Span.tag body = span at stands
  induction stands with
  | here =>
    subst eq
    exact proper.1
  | @later first span rest i behind ih =>
    cases first with
    | text s => exact ih proper.2.2.2 eq
    | tag other => exact ih proper.2 eq
    | unclosed s =>
      obtain ⟨-, -, rfl⟩ := proper
      cases behind

theorem clear_zero (spans : List Span) : Clear spans 0 :=
  fun _ _ _ before => absurd before (Nat.not_lt_zero _)

theorem clear_cons_iff {first : Span} {rest : List Span} {k : Nat} :
    Clear (first :: rest) (first.source.length + k) ↔ Clear rest k := by
  constructor
  · intro clear j body stands before
    have := clear _ body (.later stands) (by omega)
    omega
  · intro clear j body stands before
    rcases at_cons_iff.1 stands with ⟨rfl, rfl⟩ | ⟨j, rfl, behind⟩
    · omega
    · have := clear j body behind (by omega)
      omega

theorem not_clear_of_inside {body : List Char} {rest : List Span} {i : Nat} (behind : 0 < i)
    (inside : i < (Span.tag body).source.length) : ¬ Clear (.tag body :: rest) i := by
  intro clear
  have := clear 0 body .here behind
  omega

end Span

namespace Delimiter

theorem even_backslashes_iff {s : List Char} : Even (backslashes s) ↔ oddBehind false s = false := by
  rw [← Bool.not_eq_true, oddBehind_iff, Nat.not_odd_iff_even]

/-- No live opener begins in literal text, also where more text follows it. -/
theorem not_opens_of_quiet {s t : List Char} {i : Nat} (quiet : live false s = 0) (apart : Apart t)
    (inside : i < s.length) (even : Even (backslashes ((s ++ t).take i))) : opens ((s ++ t).drop i) = false := by
  rw [List.take_append_of_le_length inside.le] at even
  rw [List.drop_append_of_le_length inside.le, List.drop_eq_getElem_cons inside, List.cons_append,
    opens_append_of_apart apart, ← List.drop_eq_getElem_cons inside]
  refine Bool.eq_false_iff.2 fun opening => ?_
  obtain ⟨after, eq⟩ := opens_iff.1 opening
  refine openers_eq_zero_iff.1 quiet (s.take i) after ?_ (even_backslashes_iff.1 even)
  rw [← eq, List.take_append_drop]

end Delimiter

namespace Span

/-- Behind a span that leaves no open run of backslashes, positions count from its end. -/
theorem begins_cons_iff {first : Span} {rest : List Span} {k : Nat}
    (even : rest.flatMap source = [] ∨ oddBehind false first.source = false) :
    Begins ((first :: rest).flatMap source) (first :: rest) (first.source.length + k) ↔
      Begins (rest.flatMap source) rest k := by
  have opening : opens (((first :: rest).flatMap source).drop (first.source.length + k)) =
      opens ((rest.flatMap source).drop k) := by
    rw [List.flatMap_cons, List.drop_length_add_append]
  have parity (here : opens ((rest.flatMap source).drop k) = true) :
      Even (backslashes (((first :: rest).flatMap source).take (first.source.length + k))) ↔
        Even (backslashes ((rest.flatMap source).take k)) := by
    have even : oddBehind false first.source = false := even.resolve_left fun none => by
      simp [none, opens] at here
    rw [even_backslashes_iff, even_backslashes_iff, List.flatMap_cons, List.take_length_add_append,
      oddBehind_append, even]
  constructor
  · rintro ⟨here, run, clear⟩
    rw [opening] at here
    exact ⟨here, (parity here).1 run, clear_cons_iff.1 clear⟩
  · rintro ⟨here, run, clear⟩
    exact ⟨opening.trans here, (parity here).2 run, clear_cons_iff.2 clear⟩

/-- The tags of a source begin at its live openers outside of earlier tags. -/
theorem begins_iff {spans : List Span} (proper : Proper spans) (closed : spans.any endless = false) (i : Nat) :
    (∃ body, At spans i (.tag body)) ↔ Begins (spans.flatMap source) spans i := by
  induction spans generalizing i with
  | nil =>
    constructor
    · rintro ⟨body, stands⟩
      cases stands
    · intro begins
      simpa [opens] using begins.opening
  | cons first rest ih =>
    cases first with
    | unclosed s => simp [endless] at closed
    | tag body =>
      rcases Nat.eq_zero_or_pos i with rfl | behind
      · exact ⟨fun _ => ⟨rfl, by simp [backslashes], clear_zero _⟩, fun _ => ⟨body, .here⟩⟩
      · rcases Nat.lt_or_ge i (tag body).source.length with inside | after
        · constructor
          · rintro ⟨other, stands⟩
            rcases at_cons_iff.1 stands with ⟨rfl, -⟩ | ⟨k, rfl, -⟩ <;> omega
          · intro begins
            exact absurd begins.clear (not_clear_of_inside behind inside)
        · obtain ⟨k, rfl⟩ := Nat.exists_eq_add_of_le after
          rw [begins_cons_iff (.inr (oddBehind_of_sealed (sealed_source_tag body) false)), ← ih proper.2 closed]
          exact exists_congr fun _ => at_later_iff (by simp [source, opener])
    | text s =>
      obtain ⟨filled, quiet, follows, proper⟩ := proper
      have stops := stops_of_follows follows proper
      rcases Nat.lt_or_ge i (text s).source.length with inside | after
      · constructor
        · rintro ⟨other, stands⟩
          rcases at_cons_iff.1 stands with ⟨-, other⟩ | ⟨k, rfl, -⟩
          · cases other
          · omega
        · intro begins
          have quiet := not_opens_of_quiet quiet (apart_of_stops stops) inside begins.even
          exact absurd (quiet.symm.trans begins.opening) Bool.false_ne_true
      · obtain ⟨k, rfl⟩ := Nat.exists_eq_add_of_le after
        rw [begins_cons_iff (stops.imp_right And.right), ← ih proper closed]
        exact exists_congr fun _ => at_later_iff filled

/-- A tag of a source ends at the first closer behind its opener. -/
theorem firstCloser_of_at {spans : List Span} {i : Nat} {body : List Char} (proper : Proper spans)
    (stands : At spans i (.tag body)) : FirstCloser ((spans.flatMap source).drop (i + opener.length)) body := by
  obtain ⟨rest, eq⟩ := drop_of_at stands
  have behind : (spans.flatMap source).drop (i + opener.length) = body ++ closer ++ rest := by
    rw [← List.drop_drop, eq, source, List.append_assoc, List.append_assoc, List.drop_left, List.append_assoc]
  rw [behind]
  exact firstCloser_iff.2 ⟨rest, splitTag_of_closed (closed_of_at proper stands) rest⟩

theorem positioned_of_proper {spans : List Span} (proper : Proper spans) (closed : spans.any endless = false) :
    Positioned (spans.flatMap source) spans where
  starts := begins_iff proper closed
  ends _ _ := firstCloser_of_at proper

theorem Positioned.tail {first : Span} {rest : List Span}
    (positioned : Positioned ((first :: rest).flatMap source) (first :: rest)) (filled : first.source ≠ [])
    (even : rest.flatMap source = [] ∨ oddBehind false first.source = false) :
    Positioned (rest.flatMap source) rest where
  starts k := by
    rw [← begins_cons_iff even, ← positioned.starts]
    exact exists_congr fun _ => (at_later_iff filled).symm
  ends k body stands := by
    have ends := positioned.ends _ body (.later stands)
    rwa [List.flatMap_cons, Nat.add_assoc, List.drop_length_add_append] at ends

/-- No tag begins in literal text, so no opener in it is live: a live one would stand
    behind an even run, outside of every tag. -/
theorem Positioned.quiet {s : List Char} {rest : List Span}
    (positioned : Positioned ((text s :: rest).flatMap source) (text s :: rest)) : live false s = 0 := by
  have outside {j : Nat} {body : List Char} (stands : At (text s :: rest) j (.tag body)) : s.length ≤ j := by
    rcases at_cons_iff.1 stands with ⟨-, other⟩ | ⟨k, rfl, -⟩
    · cases other
    · exact Nat.le_add_right _ _
  rw [live, openers_eq_zero_iff]
  rintro before after rfl even
  have begins : Begins ((text (before ++ '$' :: '{' :: '[' :: after) :: rest).flatMap source)
      (text (before ++ '$' :: '{' :: '[' :: after) :: rest) before.length := by
    refine ⟨?_, ?_, fun j body stands inside => ?_⟩
    · simp [source, opens]
    · rw [even_backslashes_iff]
      simpa [source] using even
    · have := outside stands
      simp only [List.length_append] at this
      omega
  obtain ⟨body, stands⟩ := (positioned.starts before.length).2 begins
  have := outside stands
  simp only [List.length_append, List.length_cons] at this
  omega

/-- Before a tag no run of backslashes is open. -/
theorem Positioned.even {s body : List Char} {rest : List Span}
    (positioned : Positioned ((text s :: tag body :: rest).flatMap source) (text s :: tag body :: rest)) :
    oddBehind false s = false := by
  have begins := (positioned.starts _).1 ⟨body, .later .here⟩
  have even := begins.even
  rwa [List.flatMap_cons, List.take_length_add_append, List.take_zero, List.append_nil,
    even_backslashes_iff] at even

theorem Positioned.closed {body : List Char} {rest : List Span}
    (positioned : Positioned ((tag body :: rest).flatMap source) (tag body :: rest)) : Closed body := by
  obtain ⟨later, found⟩ := firstCloser_iff.1 (positioned.ends 0 body .here)
  exact closed_of_splitTag found

end Span

/-! ## Tokens and their spans -/

/-- The token of a span: literal text without one backslash before each opener, or the
    tag that is read from a body and keeps its source. -/
inductive Token.Of : Token → Span → Prop
  | raw {content : String} {s : List Char} {pieces : List (List Char)}
      (pieced : Pieced pieces s content.toList) : Of (.raw content) (.text s)
  | tag {token : Token} {body : List Char} (read : token.ReadFrom body) : Of token (.tag body)

theorem Token.of_tag_iff {token : Token} {body : List Char} : token.Of (.tag body) ↔ token.ReadFrom body := by
  constructor
  · intro here
    cases here with
    | tag read => exact read
  · exact .tag

theorem Token.of_text_iff {token : Token} {s : List Char} (quiet : live false s = 0) :
    token.Of (.text s) ↔ token = .raw (String.ofList (unescapeFrom false s)) := by
  constructor
  · rintro ⟨pieced⟩
    rw [(exists_pieced_iff quiet).1 ⟨_, pieced⟩, String.ofList_toList]
  · rintro rfl
    obtain ⟨pieces, pieced⟩ := (exists_pieced_iff quiet).2 rfl
    exact .raw (by simpa using pieced)

namespace Template

/-- The source falls into the spans, whose tags stand where the source says, and the
    template has a token for each of them. No text is empty or meets another one. -/
structure Bounded (text : String) (spans : List Span) (template : Template) : Prop where
  whole : spans.flatMap Span.source = text.toList
  positioned : Span.Positioned text.toList spans
  tokens : List.Forall₂ Token.Of template spans
  unbroken : Unbroken template

/-- Proper spans are read token by token. -/
theorem ofSpans_eq_ok_iff {start : Nat} {spans : List Span} {template : Template} (proper : Span.Proper spans) :
    ofSpans start spans = .ok template ↔ List.Forall₂ Token.Of template spans := by
  induction spans generalizing start template with
  | nil => rw [List.forall₂_nil_right_iff, ofSpans, Except.ok.injEq, eq_comm]
  | cons span rest ih =>
    rw [List.forall₂_cons_right_iff]
    cases span with
    | unclosed s =>
      constructor
      · intro read
        exact absurd read (by simp [ofSpans])
      · rintro ⟨token, others, ⟨⟩, -⟩
    | tag body =>
      rw [ofSpans_tag]
      constructor
      · rintro ⟨value, others, accepted, later, rfl⟩
        exact ⟨_, others, .tag ⟨value, accepted, rfl⟩, (ih proper.2).1 later, rfl⟩
      · rintro ⟨token, others, here, tokens, rfl⟩
        obtain ⟨value, accepted, rfl⟩ := Token.of_tag_iff.1 here
        exact ⟨value, others, accepted, (ih proper.2).2 tokens, rfl⟩
    | text s =>
      obtain ⟨-, quiet, -, proper⟩ := proper
      rw [ofSpans_text]
      constructor
      · rintro ⟨others, later, rfl⟩
        exact ⟨_, others, (Token.of_text_iff quiet).2 rfl, (ih proper).1 later, rfl⟩
      · rintro ⟨token, others, here, tokens, rfl⟩
        exact ⟨others, (ih proper).2 tokens, by rw [(Token.of_text_iff quiet).1 here]⟩

theorem unbroken_of_spells {template : Template} {spans : List Span} (spells : Spells template spans)
    (proper : Span.Proper spans) : Unbroken template := by
  induction spells with
  | nil => trivial
  | cons head tail ih =>
    cases head with
    | tag read written => exact ih proper.2
    | @raw content s shown written =>
      obtain ⟨filled, -, follows, proper⟩ := proper
      refine ⟨?_, fun more first => ?_, ih proper⟩
      · rintro rfl
        exact filled written.symm
      · cases tail with
        | nil => simp at first
        | cons next others =>
          cases next with
          | raw shown written => exact follows
          | tag read written => simp at first

/-- A source that is read is cut where its live openers and its closers say. -/
theorem bounded_of_parse {text : String} {template : Template} (read : parse text = .ok template) :
    Bounded text (Span.spans text.toList) template := by
  have proper := Span.proper_spans text.toList
  have whole := Span.source_spans text.toList
  have positioned := Span.positioned_of_proper proper (inside_of_parse read)
  rw [whole] at positioned
  exact {
    whole := whole
    positioned := positioned
    tokens := (ofSpans_eq_ok_iff proper).1 read
    unbroken := unbroken_of_spells (spells_of_parse read).1 proper }

/-- Spans whose tags are positioned, with text between them, are proper. -/
theorem proper_of_positioned {spans : List Span} {template : Template}
    (positioned : Span.Positioned (spans.flatMap Span.source) spans)
    (tokens : List.Forall₂ Token.Of template spans) (unbroken : Unbroken template) : Span.Proper spans := by
  induction tokens with
  | nil => trivial
  | @cons token span template rest head tail ih =>
    cases head with
    | @tag token body read =>
      obtain ⟨value, -, rfl⟩ := read
      have filled : (Span.tag body).source ≠ [] := by simp [Span.source, Span.opener]
      have even := oddBehind_of_sealed (Span.sealed_source_tag body) false
      exact ⟨positioned.closed, ih (positioned.tail filled (.inr even)) unbroken⟩
    | @raw content s pieces pieced =>
      obtain ⟨filled, apart, unbroken⟩ := unbroken
      have quiet := positioned.quiet
      have more : s ≠ [] := by
        rintro rfl
        have empty := (exists_pieced_iff quiet).1 ⟨_, pieced⟩
        exact filled (by simpa [unescapeFrom] using empty.symm)
      cases tail with
      | nil => exact ⟨more, quiet, trivial, trivial⟩
      | cons next others =>
        cases next with
        | raw pieced => exact absurd rfl (apart _)
        | tag read =>
          have even := positioned.even
          exact ⟨more, quiet, even, ih (positioned.tail more (.inr even)) unbroken⟩

/-- A source is read as a template if and only if it falls into the tokens of the
    template: its tags begin at the openers behind even runs of backslashes, outside of
    tags before them, and end at the first closers outside quoted text. -/
theorem parse_eq_ok_iff_bounded {text : String} {template : Template} :
    parse text = .ok template ↔ ∃ spans, Bounded text spans template := by
  constructor
  · intro read
    exact ⟨_, bounded_of_parse read⟩
  · rintro ⟨spans, whole, positioned, tokens, unbroken⟩
    rw [← whole] at positioned
    have proper := proper_of_positioned positioned tokens unbroken
    rw [parse, ← whole, Span.spans_of_proper proper]
    exact (ofSpans_eq_ok_iff proper).2 tokens

/-- Runs of each parity stand before openers, a closer stands in quoted text behind an
    escaped quote, and an opener stands in a tag. -/
example : parse "a\\\\$\x7b[ x ]\x7d\\\\\\$\x7b[$\x7b[ f(v: \"]\x7d\\\"$\x7b[\") ]\x7d\\" =
    .ok [.raw "a\\\\", .tag (.variable "x") (some "$\x7b[ x ]\x7d"), .raw "\\\\$\x7b[",
      .tag (.call "f" [⟨"v", .text "]\x7d\"$\x7b["⟩]) (some "$\x7b[ f(v: \"]\x7d\\\"$\x7b[\") ]\x7d"),
      .raw "\\"] := by cbv

end Template

end RequestTemplate
