import RequestTemplate.Proofs.Escape
import RequestTemplate.Proofs.Pass
import RequestTemplate.Proofs.Source
import RequestTemplate.Render.Template

/-!
# Escaped text is inert

A source without a live opener is one span of literal text. It is read as one raw token,
and rendered as the text of that token: no variable is looked up, no function called.
Escaping makes such a source of any text, also of one that could not be read, so what
comes out is the text itself up to the openers that it had escaped already
(`inert_escape`).
-/

namespace RequestTemplate
open Delimiter

variable {σ : Type} {text : String}

theorem Delimiter.escapeFrom_eq_nil_iff {odd : Bool} {s : List Char} : escapeFrom odd s = [] ↔ s = [] := by
  cases s with
  | nil => simp [escapeFrom]
  | cons c s => rcases escapeFrom_cons odd c s with ⟨-, -, added⟩ | ⟨-, copied⟩ <;> simp [*]

/-- A source without a live opener is one span of text. -/
theorem Span.spans_of_live_eq_zero {s : List Char} (more : s ≠ []) (quiet : live false s = 0) :
    spans s = [.text s] := by
  have whole := splitText_of_live_eq_zero quiet (.inl rfl)
  rw [List.append_nil] at whole
  rw [spans_text more (opens_of_live_eq_zero quiet), whole, spans_nil]

/-- Escaped text is read as the text that it stands for. -/
theorem Template.parse_escape (text : String) :
    parse (escape text) = .ok (if text = "" then [] else [.raw (unescape text)]) := by
  rw [parse, toList_escape]
  by_cases none : text = ""
  · rw [if_pos none, none, String.toList_empty, escapeFrom, Span.spans_nil]
    rfl
  · rw [if_neg none, Span.spans_of_live_eq_zero (by simpa [escapeFrom_eq_nil_iff] using none)
      (live_escapeFrom false _)]
    exact ofSpans_text.2 ⟨[], rfl, by rw [unescapeFrom_absorbs, unescape]⟩

namespace Renderer

theorem renderSource_escape (r : Renderer σ) (text : String) :
    r.renderSource (escape text) = pure (unescape text) := by
  rw [renderSource, Template.parse_escape]
  by_cases none : text = ""
  · rw [none, if_pos rfl, unescape, String.toList_empty]
    rfl
  · rw [if_neg none]
    simp [render, tokens]

end Renderer

/-- Escaped text holds no tag. Whatever the table, the functions and the policy, it is
    rendered as the text it stands for without a call, and as the text that was escaped
    exactly where that held no escaped opener. -/
theorem inert_escape (r : Renderer σ) (text : String) (s : σ) :
    Template.parse (escape text) = .ok (if text = "" then [] else [.raw (unescape text)]) ∧
      r.renderSource (escape text) s = ⟨.ok (unescape text), s, []⟩ ∧
      ((r.renderSource (escape text) s).outcome = .ok text ↔ ¬ OpenerBehind Odd text) := by
  refine ⟨Template.parse_escape text, by rw [Renderer.renderSource_escape]; rfl, ?_⟩
  rw [Renderer.renderSource_escape, Pass.outcome_pure, Except.ok.injEq, unescape_eq_self_iff]

/-- The call stands behind two backslashes and keeps them. The opener behind one backslash
    was escaped already and comes back without it. -/
example : Template.parse (escape "\\\\$\x7b[ f() ]\x7d \\$\x7b[x") =
    .ok [.raw "\\\\$\x7b[ f() ]\x7d $\x7b[x"] := by cbv

end RequestTemplate
