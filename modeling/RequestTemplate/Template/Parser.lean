import RequestTemplate.Template.Span

/-!
# Reading templates

A template is read span by span. The first span that is no text and no well
formed tag decides the error, and its position counts from the start of the
source.
-/

namespace RequestTemplate.Template

/-- Reads spans that begin at `start` of their source. -/
def ofSpans (start : Nat) : List Span → Except ParseError Template
  | [] => .ok []
  | .text source :: rest => do
    let others ← ofSpans (start + source.length) rest
    .ok (.raw (String.ofList (Delimiter.unescapeFrom false source)) :: others)
  | .tag body :: rest => do
    let value ← Tag.readAt (start + Span.opener.length : Nat) body
    let span := (Span.tag body).source
    let others ← ofSpans (start + span.length) rest
    .ok (.tag value (some (String.ofList span)) :: others)
  | .unclosed _ :: _ => .error ⟨.unterminatedTag, some start⟩

/-- The tokens of a source. -/
def parse (source : String) : Except ParseError Template :=
  ofSpans 0 (Span.spans source.toList)

end RequestTemplate.Template
