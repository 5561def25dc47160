import RequestTemplate.Proofs.Layout
import RequestTemplate.Proofs.Recut

/-!
# Layouts are stable

The layout moves blanks and nothing else: a text that is laid out is cut into the
tokens that it was cut into before, up to the blanks around text (`essence_format`).
A layout depends on nothing else, so it is its own layout (`format_format`).
-/

namespace RequestTemplate.Markup
open Text (isBlank)

/-- Text that holds nothing but blanks. -/
def Token.isBlankText (token : Token) : Bool :=
  token.kind == .text && token.raw.toList.all isBlank

/-- Tokens up to the blanks around text: blank text is dropped, and all other text
    trimmed. -/
def essence (ts : List Token) : List Token :=
  (ts.filter fun token => !token.isBlankText).map Token.trim

/-! ## What is dropped -/

theorem isBlankText_iff {token : Token} (filled : token.raw ≠ "") :
    token.isBlankText = true ↔ token.trim.raw = "" := by
  rcases token with ⟨kind, raw⟩
  cases kind
  case text =>
    have shown : (Token.mk .text raw).isBlankText = true ↔ Blank raw.toList := by simp [Token.isBlankText, Blank]
    rw [shown]
    refine ⟨fun blank => ?_, Token.blank_of_trim⟩
    have none := Text.trim_append_blank blank []
    rw [List.nil_append] at none
    rw [Token.trim, none]
    rfl
  all_goals simpa [Token.isBlankText, Token.trim] using filled

theorem filled_of_mem_tokensOf {s : List Char} {token : Token} (member : token ∈ tokensOf s) :
    token.raw ≠ "" := by
  fun_induction tokensOf s with
  | case1 => simp at member
  | case2 s filled raw rest split ih =>
    rcases List.mem_cons.1 member with rfl | member
    · have := splitFirst_ne_nil filled
      simpa [split] using this
    · exact ih member

theorem significant_tokensOf (s : List Char) : significant (tokensOf s) = essence (tokensOf s) := by
  rw [significant, essence, List.filter_map]
  refine congrArg _ (List.filter_congr fun token member => ?_)
  have same := isBlankText_iff (filled_of_mem_tokensOf member)
  rw [Bool.eq_iff_iff]
  simp [← same]

/-! ## The tokens of a layout -/

theorem spaced_leads (source : String) {unit : String} (blank : Blank unit.toList) :
    Spaced (significant (tokens source)) (leads unit (layout source)) := by
  have lines := leads_lines blank fun line (member : line ∈ layout source) => exists_of_mem_layout member
  rw [tokens_layout] at lines
  rw [leads]
  generalize significant (tokens source) = ts at lines ⊢
  generalize (layout source).flatMap (Line.leads unit) = news at lines ⊢
  cases lines with
  | nil => exact .nil
  | cons here later =>
    -- The first line is not broken before.
    refine .cons (fun c member => here.1 c (List.mem_of_mem_tail member)) ?_
    exact later.imp fun _ _ leads => leads.1

/-- A layout is the tokens that are laid out, each behind its blanks. -/
theorem toList_format (source unit : String) :
    (format source unit).toList = interleaved (significant (tokens source)) (leads unit (layout source)) := by
  rw [← text_new_seams, seams, text_new_zipWith, placed_snd, interleaved]

theorem significant_format (source : String) {unit : String} (blank : Blank unit.toList) :
    significant (tokens (format source unit)) = significant (tokens source) := by
  rw [tokens, toList_format]
  exact significant_interleaved (cut_significant _) (spaced_leads source blank)

/-- A text that is laid out has the tokens that it had before, up to the blanks
    around text: of the same kinds and with the same characters, in the same order. -/
theorem essence_format (source : String) {unit : String} (blank : ∀ c ∈ unit.toList, isBlank c = true) :
    essence (tokens (format source unit)) = essence (tokens source) := by
  have same := significant_format source blank
  rwa [tokens, significant_tokensOf, tokens, significant_tokensOf] at same

/-- A bracket in a quoted value, an element on one line and one on several, a template
    that ends in its quoted text, and a tag that swallows the rest. -/
theorem essence_format_unclosed :
    let source := "<a x='>'> hi </a>  <b>one\n two</b></c>$\x7b[ f(\"]\x7d  <d y=\" </d> "
    (∀ c ∈ "\t".toList, isBlank c = true) ∧
      format source "\t" = "<a x='>'>hi</a>\n<b>\n\tone\n two\n</b>\n</c>\n$\x7b[ f(\"]\x7d\n<d y=\" </d> " ∧
      essence (tokens (format source "\t")) = essence (tokens source) := by
  intro source
  have blank : ∀ c ∈ "\t".toList, isBlank c = true := List.all_eq_true.1 (by decide)
  exact ⟨blank, by cbv, essence_format source blank⟩

/-- A layout is laid out as its source is. -/
theorem layout_format (source : String) {unit : String} (blank : Blank unit.toList) :
    layout (format source unit) = layout source := by
  rw [layout, significant_format source blank, layout]

/-- Laying a text out once more changes nothing. -/
theorem format_format (source : String) {unit : String} (blank : ∀ c ∈ unit.toList, isBlank c = true) :
    format (format source unit) unit = format source unit := by
  rw [format, layout_format source blank, format]

/-- The indentation may break lines itself, and the last template may never end. -/
theorem format_format_unclosed :
    let source := " <a>x </b><![CDATA[ <b> ]]><c/>  \n$\x7b[ d <!-- "
    (∀ c ∈ " \n".toList, isBlank c = true) ∧
      format source " \n" = "<a>\n \nx\n</b>\n<![CDATA[ <b> ]]>\n<c/>\n$\x7b[ d <!-- " ∧
      format (format source " \n") " \n" = format source " \n" := by
  intro source
  have blank : ∀ c ∈ " \n".toList, isBlank c = true := List.all_eq_true.1 (by decide)
  exact ⟨blank, by cbv, format_format source blank⟩

end RequestTemplate.Markup
