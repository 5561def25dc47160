import RequestTemplate.Proofs.Span
import RequestTemplate.Template.Parser
import RequestTemplate.Template.Printer

/-!
# Templates and their sources

A token spells a span when it is read from that span and written as it. The
tokens of a source spell its spans, so writing them gives the source back
(`source_eq_of_parse`). Tokens that spell a proper list of spans are read back
from what they write, with every tag keeping the source it was written as
(`parse_of_spells`).
-/

namespace RequestTemplate
open Delimiter

/-- The token is read from the span, and written as it. -/
inductive Token.Spells : Token → Span → Prop
  | raw {content : String} {s : List Char} (shown : unescapeFrom false s = content.toList)
      (written : escapeFrom false content.toList = s) : Spells (.raw content) (.text s)
  | tag {value : Expression} {span : Option String} {body : List Char}
      (read : Tag.read body = .ok value)
      (written : (Token.tag value span).source.toList = (Span.tag body).source) :
      Spells (.tag value span) (.tag body)

/-- The token as it is read back: a tag keeps the source it is written as. -/
def Token.settled : Token → Token
  | .raw content => .raw content
  | .tag value span => .tag value (some (Token.tag value span).source)

/-- Whatever becomes of the span, the tag holds the expression that is put into it. -/
theorem Token.withExpression_tag (old value : Expression) (span : Option String) :
    ∃ kept, (Token.tag old span).withExpression value = .tag value kept := by
  simp only [withExpression]
  split
  · rename_i same
    exact ⟨span, by rw [same]⟩
  · exact ⟨none, rfl⟩

/-- A tag without a span has none afterwards either. -/
theorem Token.withExpression_unspanned (old value : Expression) :
    (Token.tag old none).withExpression value = .tag value none := by
  rw [withExpression]
  split_ifs with same
  · rw [same]
  · rfl

namespace Template

abbrev Spells : Template → List Span → Prop := List.Forall₂ Token.Spells

def settled (template : Template) : Template := template.map Token.settled

theorem source_settled (template : Template) : source (settled template) = source template := by
  have same (token : Token) : token.settled.source = token.source := by
    cases token <;> rfl
  rw [source, settled, List.map_map]
  exact congrArg String.join (List.map_congr_left fun token _ => same token)

/-! ## From spans to tokens -/

theorem toList_source_of_spells {token : Token} {span : Span} (spells : token.Spells span) :
    token.source.toList = span.source := by
  cases spells with
  | raw shown written => simpa [Token.source, escape, Span.source] using written
  | tag read written => exact written

theorem toList_source {template : Template} {spans : List Span} (spells : Spells template spans) :
    (source template).toList = spans.flatMap Span.source := by
  rw [source, String.toList_join]
  induction spells with
  | nil => rfl
  | cons head tail ih => simp [toList_source_of_spells head, ih]

theorem readAt_of_read {body : List Char} {value : Expression} (read : Tag.read body = .ok value)
    (offset : Int) : Tag.readAt offset body = .ok value := by
  simp [Tag.readAt, read]

theorem read_of_readAt {body : List Char} {value : Expression} {offset : Int}
    (read : Tag.readAt offset body = .ok value) : Tag.read body = .ok value := by
  unfold Tag.readAt at read
  split at read
  · rename_i found
    rw [found, Except.ok.inj read]
  · exact absurd read (by simp)

/-- Reading goes on behind a span of text. -/
theorem ofSpans_text {start : Nat} {s : List Char} {rest : List Span} {template : Template} :
    ofSpans start (.text s :: rest) = .ok template ↔
      ∃ others, ofSpans (start + s.length) rest = .ok others ∧
        template = .raw (String.ofList (unescapeFrom false s)) :: others := by
  rw [ofSpans]
  cases ofSpans (start + s.length) rest with
  | error e => simp [bind, Except.bind]
  | ok others => simp [bind, Except.bind, eq_comm]

/-- Reading goes on behind a tag whose body is well formed. -/
theorem ofSpans_tag {start : Nat} {body : List Char} {rest : List Span} {template : Template} :
    ofSpans start (.tag body :: rest) = .ok template ↔
      ∃ value others, Tag.read body = .ok value ∧
        ofSpans (start + (Span.tag body).source.length) rest = .ok others ∧
        template = .tag value (some (String.ofList (Span.tag body).source)) :: others := by
  rw [ofSpans]
  cases read : Tag.readAt ↑(start + Span.opener.length) body with
  | error e =>
    have refused : ∀ value, Tag.read body ≠ .ok value := fun value accepted =>
      absurd (read.symm.trans (readAt_of_read accepted _)) (by simp)
    simp [bind, Except.bind, refused]
  | ok value =>
    rw [read_of_readAt read]
    cases later : ofSpans (start + (Span.tag body).source.length) rest with
    | error e => simp [bind, Except.bind, later]
    | ok others => simp [bind, Except.bind, later, eq_comm]

theorem spells_of_ofSpans {start : Nat} {spans : List Span} {template : Template}
    (proper : Span.Proper spans) (read : ofSpans start spans = .ok template) :
    Spells template spans ∧ settled template = template := by
  induction spans generalizing start template with
  | nil =>
    obtain rfl : [] = template := Except.ok.inj read
    exact ⟨.nil, rfl⟩
  | cons span rest ih =>
    cases span with
    | unclosed s => exact absurd read (by simp [ofSpans])
    | text s =>
      obtain ⟨-, quiet, -, proper⟩ := proper
      obtain ⟨others, later, rfl⟩ := ofSpans_text.1 read
      obtain ⟨spells, same⟩ := ih proper later
      refine ⟨.cons (.raw (by simp) ?_) spells, congrArg _ same⟩
      rw [String.toList_ofList, escapeFrom_unescapeFrom quiet]
    | tag body =>
      obtain ⟨value, others, accepted, later, rfl⟩ := ofSpans_tag.1 read
      obtain ⟨spells, same⟩ := ih proper.2 later
      exact ⟨.cons (.tag accepted (by simp [Token.source])) spells, congrArg _ same⟩

theorem ofSpans_of_spells {template : Template} {spans : List Span} (spells : Spells template spans)
    (start : Nat) : ofSpans start spans = .ok (settled template) := by
  induction spells generalizing start with
  | nil => rfl
  | cons head tail ih =>
    cases head with
    | raw shown written =>
      exact ofSpans_text.2 ⟨_, ih _, by simp [settled, Token.settled, shown]⟩
    | tag read written =>
      refine ofSpans_tag.2 ⟨_, _, read, ih _, ?_⟩
      simp [settled, Token.settled, ← written]

/-! ## Reading and writing -/

theorem spells_of_parse {source : String} {template : Template} (read : parse source = .ok template) :
    Spells template (Span.spans source.toList) ∧ settled template = template :=
  spells_of_ofSpans (Span.proper_spans _) read

theorem parse_of_spells {template : Template} {spans : List Span} (spells : Spells template spans)
    (proper : Span.Proper spans) : parse (source template) = .ok (settled template) := by
  rw [parse, toList_source spells, Span.spans_of_proper proper]
  exact ofSpans_of_spells spells 0

/-- Writing the tokens of a source gives the source back, character by character. -/
theorem source_eq_of_parse {text : String} {template : Template} (read : parse text = .ok template) :
    source template = text := by
  have written := toList_source (spells_of_parse read).1
  rw [Span.source_spans] at written
  exact String.toList_inj.1 written

/-- Runs of backslashes of each parity are written back before tags, before an
    opener that they hide, and at the end. -/
theorem source_eq_of_parse_backslashes :
    let text := "a\\\\$\x7b[ x ]\x7d\\\\\\$\x7b[$\x7b[ f(v: \"]\x7d\\\"\") ]\x7d\\"
    let template : Template :=
      [.raw "a\\\\", .tag (.variable "x") (some "$\x7b[ x ]\x7d"), .raw "\\\\$\x7b[",
        .tag (.call "f" [⟨"v", .text "]\x7d\""⟩]) (some "$\x7b[ f(v: \"]\x7d\\\"\") ]\x7d"), .raw "\\"]
    parse text = .ok template ∧ source template = text :=
  have read : parse "a\\\\$\x7b[ x ]\x7d\\\\\\$\x7b[$\x7b[ f(v: \"]\x7d\\\"\") ]\x7d\\" = .ok _ := by cbv
  ⟨read, source_eq_of_parse read⟩

end Template

end RequestTemplate
