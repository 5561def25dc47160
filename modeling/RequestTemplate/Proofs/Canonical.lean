import RequestTemplate.Proofs.Grammar
import RequestTemplate.Proofs.Source

/-!
# The canonical form of a tag

An expression is well formed when its names are names of the language, the names
of its arguments differ, and no variable among them is called like a literal.
What a tag holds is always well formed (`wellFormed_of_read`). The canonical form
of a well-formed expression ends where it should, whatever its texts hold
(`closed_canonical`), and is read back as that expression (`read_canonical`). So the
expressions that survive being written are exactly those that can be read
(`parse_canonical_iff`).
-/

namespace RequestTemplate

/-- A variable that no literal is written like; a literal always. -/
def Operand.WellFormed : Operand → Prop
  | .variable name => Tag.IsName name ∧ Tag.ofName name = .variable name
  | _ => True

def Argument.WellFormed (argument : Argument) : Prop :=
  Tag.IsName argument.name ∧ argument.value.WellFormed

def Expression.WellFormed : Expression → Prop
  | .variable name => Tag.IsName name
  | .call name arguments =>
    Tag.IsName name ∧ (arguments.map Argument.name).Nodup ∧ ∀ a ∈ arguments, a.WellFormed

/-- What stands between the delimiters of a tag in canonical form. -/
def Expression.body (value : Expression) : List Char := ' ' :: value.source.toList ++ [' ']

namespace Tag

/-! ## The canonical form is a text of the grammar -/

theorem quotedBody_quote (text : List Char) : QuotedBody '"' (text.flatMap Operand.quoteChar) text := by
  induction text with
  | nil => exact .empty
  | cons c text ih =>
    rw [List.flatMap_cons]
    by_cases special : c = '\\' ∨ c = '"'
    · have kept : Escape c c := by
        rcases special with rfl | rfl
        · exact .itself (by decide)
        · exact .itself (by decide)
      rw [Operand.quoteChar, if_pos special]
      exact .escaped kept ih
    · rw [Operand.quoteChar, if_neg special]
      exact .plain (not_or.1 special) ih

/-- A value is quoted text, or written as a name that is read as it. -/
theorem text_or_isName {value : Operand} (formed : value.WellFormed) :
    (∃ content, value = .text content) ∨ (IsName value.source ∧ ofName value.source = value) := by
  rcases value with content | b | _ | name
  · exact .inl ⟨content, rfl⟩
  · cases b with
    | true => exact .inr ⟨isName_of_all rfl (by decide) (by decide), rfl⟩
    | false => exact .inr ⟨isName_of_all rfl (by decide) (by decide), rfl⟩
  · exact .inr ⟨isName_of_all rfl (by decide) (by decide), rfl⟩
  · exact .inr formed

theorem operandText_source {value : Operand} (formed : value.WellFormed) :
    OperandText value.source.toList value := by
  rcases text_or_isName formed with ⟨content, rfl⟩ | ⟨named, same⟩
  · have quoted := OperandText.quoted (.inl rfl) (quotedBody_quote content.toList)
    simpa [Operand.source, Operand.quote] using quoted
  · have written := operandText_ofName named
    rwa [same] at written

theorem toList_argumentSource (argument : Argument) :
    argument.source.toList = argument.name.toList ++ ':' :: ' ' :: argument.value.source.toList := by
  simp [Argument.source]

theorem blanks_blank : Blanks [' '] := by
  intro c member
  obtain rfl := List.mem_singleton.1 member
  decide

theorem argumentText_source {a : Argument} (formed : a.WellFormed) : ArgumentText a.source.toList a := by
  rw [toList_argumentSource]
  exact .assigned formed.1 blanks_nil (.inl rfl) blanks_blank (operandText_source formed.2)

/-- The arguments between the parentheses of a call in canonical form. -/
def list (args : List Argument) : List Char :=
  [',', ' '].intercalate (args.map fun a => a.source.toList)

theorem list_cons_cons (a b : Argument) (args : List Argument) :
    list (a :: b :: args) = a.source.toList ++ ',' :: ' ' :: list (b :: args) := by
  simp [list, List.intercalate]

theorem listText_list {args : List Argument} (formed : ∀ a ∈ args, a.WellFormed) :
    ListText (list args) args := by
  induction args with
  | nil => exact .none
  | cons a args ih =>
    have first := argumentText_source (formed a List.mem_cons_self)
    have later := ih fun b member => formed b (List.mem_cons_of_mem _ member)
    cases args with
    | nil => simpa [list] using ListText.some first blanks_nil .stop
    | cons b args =>
      rw [list_cons_cons]
      exact .some first blanks_nil (moreText_comma blanks_blank later)

theorem toList_call (name : String) (args : List Argument) :
    (Expression.call name args).source.toList = name.toList ++ '(' :: (list args ++ [')']) := by
  simp [Expression.source, String.toList_intercalate, list, Function.comp_def]

theorem bodyText_canonical {value : Expression} (formed : value.WellFormed) :
    BodyText value.body value := by
  rcases value with name | ⟨name, args⟩
  · exact .reference blanks_blank formed blanks_blank
  · obtain ⟨named, distinct, argumentsFormed⟩ := formed
    have written := BodyText.call blanks_blank named blanks_nil blanks_nil (listText_list argumentsFormed)
      distinct blanks_blank
    rw [Expression.body, toList_call]
    simpa using written

/-- What is written canonically is read back. -/
theorem read_canonical {value : Expression} (formed : value.WellFormed) : read value.body = .ok value :=
  read_eq_ok_iff.2 (bodyText_canonical formed)

/-! ## What the grammar derives is well formed -/

theorem wellFormed_of_operandText {s : List Char} {value : Operand} (written : OperandText s value) :
    value.WellFormed := by
  cases written with
  | quoted => trivial
  | isTrue => trivial
  | isFalse => trivial
  | null => trivial
  | reference named other => exact ⟨named, ofName_eq_variable_iff.2 ⟨rfl, other⟩⟩

theorem wellFormed_of_argumentText {s : List Char} {a : Argument} (written : ArgumentText s a) :
    a.WellFormed := by
  cases written with
  | assigned named blank signs blankBehind valued => exact ⟨named, wellFormed_of_operandText valued⟩

theorem wellFormed_of_moreText {s : List Char} {args : List Argument} (written : MoreText s args) :
    ∀ a ∈ args, a.WellFormed := by
  induction written with
  | stop => simp
  | comma => simp
  | next blank argument blankBehind more ih =>
    exact List.forall_mem_cons.2 ⟨wellFormed_of_argumentText argument, ih⟩

theorem wellFormed_of_listText {s : List Char} {args : List Argument} (written : ListText s args) :
    ∀ a ∈ args, a.WellFormed := by
  cases written with
  | none => simp
  | some argument blank more =>
    exact List.forall_mem_cons.2 ⟨wellFormed_of_argumentText argument, wellFormed_of_moreText more⟩

/-- What a tag holds is well formed. -/
theorem wellFormed_of_read {body : List Char} {value : Expression} (found : read body = .ok value) :
    value.WellFormed := by
  cases read_eq_ok_iff.1 found with
  | reference blank named => exact named
  | call blank named blankBehind blankInner listed distinct =>
    exact ⟨named, distinct, wellFormed_of_listText listed⟩

end Tag

/-! ## Where a canonical tag ends -/

namespace Span
open Delimiter

/-- No tag ends inside `s` when its scan goes from `state` to `next`. -/
def Passes (state next : Quoting) (s : List Char) : Prop :=
  ∀ t, splitTag state (s ++ t) = (splitTag next t).map fun (body, after) => (s ++ body, after)

theorem passes_nil (state : Quoting) : Passes state state [] := by
  intro t
  simp

theorem Passes.append {state middle next : Quoting} {s t : List Char} (first : Passes state middle s)
    (second : Passes middle next t) : Passes state next (s ++ t) := by
  intro u
  rw [List.append_assoc, first, second, Option.map_map]
  simp [Function.comp_def]

theorem passes_cons {state next : Quoting} {c : Char} {s : List Char} (other : state = .bare → c ≠ ']')
    (tail : Passes (state.step c) next s) : Passes state next (c :: s) := by
  intro t
  rw [List.cons_append, splitTag_go, tail, Option.map_map]
  · simp [Function.comp_def]
  · rintro ⟨bare, stops⟩
    rw [closes_cons_of_ne (other bare)] at stops
    exact absurd stops (by simp)

/-- Text without quotes and closers leaves a scan where it is. -/
theorem passes_plain {s : List Char} (plain : ∀ c ∈ s, Tag.isQuote c = false ∧ c ≠ ']') :
    Passes .bare .bare s := by
  induction s with
  | nil => exact passes_nil _
  | cons c s ih =>
    obtain ⟨bare, other⟩ := plain c (by simp)
    refine passes_cons (fun _ => other) ?_
    simpa [Quoting.step, bare] using ih fun d member => plain d (by simp [member])

theorem passes_quote (content : String) : Passes .bare .bare (Operand.quote content).toList := by
  have inside : ∀ s : List Char, Passes (.within '"') .bare (s.flatMap Operand.quoteChar ++ ['"']) := by
    intro s
    induction s with
    | nil => exact passes_cons (by simp) (by simpa [Quoting.step] using passes_nil _)
    | cons c s ih =>
      rw [List.flatMap_cons, List.append_assoc]
      by_cases special : c = '\\' ∨ c = '"'
      · simp only [Operand.quoteChar, special, if_true]
        refine passes_cons (by simp) (passes_cons (by simp [Quoting.step]) ?_)
        simpa [Quoting.step] using ih
      · obtain ⟨plain, other⟩ := not_or.1 special
        simp only [Operand.quoteChar, special, if_false]
        refine passes_cons (by simp) ?_
        simpa [Quoting.step, plain, other] using ih
  rw [Operand.quote, String.toList_ofList]
  exact passes_cons (by simp) (by simpa [Quoting.step, Tag.isQuote] using inside content.toList)

theorem passes_name {word : String} (named : Tag.IsName word) : Passes .bare .bare word.toList := by
  refine passes_plain fun c member => ?_
  have within := named.inName c member
  refine ⟨Tag.isQuote_of_inName within, ?_⟩
  rintro rfl
  exact absurd within (by decide)

theorem passes_operand {value : Operand} (formed : value.WellFormed) :
    Passes .bare .bare value.source.toList := by
  rcases Tag.text_or_isName formed with ⟨content, rfl⟩ | ⟨named, -⟩
  · exact passes_quote content
  · exact passes_name named

theorem passes_argument {a : Argument} (formed : a.WellFormed) :
    Passes .bare .bare a.source.toList := by
  rw [Tag.toList_argumentSource]
  exact (passes_name formed.1).append ((passes_plain (s := [':', ' ']) (by simp [Tag.isQuote])).append
    (passes_operand formed.2))

theorem passes_list {args : List Argument} (formed : ∀ a ∈ args, a.WellFormed) :
    Passes .bare .bare (Tag.list args) := by
  induction args with
  | nil => exact passes_nil _
  | cons a args ih =>
    have head := passes_argument (formed a (by simp))
    have tail := ih fun b member => formed b (by simp [member])
    cases args with
    | nil => simpa [Tag.list] using head
    | cons b args =>
      rw [Tag.list_cons_cons]
      exact head.append ((passes_plain (s := [',', ' ']) (by simp [Tag.isQuote])).append tail)

theorem passes_body {value : Expression} (formed : value.WellFormed) :
    Passes .bare .bare value.body := by
  have inner : Passes .bare .bare value.source.toList := by
    rcases value with name | ⟨name, args⟩
    · exact passes_name formed
    · rw [Tag.toList_call]
      exact (passes_name formed.1).append ((passes_plain (s := ['(']) (by simp [Tag.isQuote])).append
        ((passes_list formed.2.2).append (passes_plain (by simp [Tag.isQuote]))))
  have blank : Passes .bare .bare [' '] := passes_plain (by simp [Tag.isQuote])
  exact blank.append (inner.append blank)

/-- A tag in canonical form ends at its own closer, whatever its texts hold. -/
theorem closed_canonical {value : Expression} (formed : value.WellFormed) : Closed value.body := by
  rw [Closed, passes_body formed, ← List.append_nil closer, splitTag_stop]
  simp

end Span

/-- A tag without a span spells its canonical form. -/
theorem spells_canonical {value : Expression} (formed : value.WellFormed) :
    (Token.tag value none).Spells (.tag value.body) := by
  refine .tag (Tag.read_canonical formed) ?_
  simp [Token.source, Expression.tagSource, Span.source, Span.opener, Span.closer, Expression.body]

/-! ## Canonical tags are read back -/

namespace Template

theorem wellFormed_of_spells {template : Template} {spans : List Span} (spells : Spells template spans)
    {value : Expression} {span : Option String} (member : .tag value span ∈ template) :
    value.WellFormed := by
  induction spells with
  | nil => simp at member
  | cons head tail ih =>
    rcases List.mem_cons.1 member with rfl | later
    · cases head with
      | tag read written => exact Tag.wellFormed_of_read read
    · exact ih later

theorem parse_canonical {value : Expression} (formed : value.WellFormed) :
    parse (Token.tag value none).source = .ok [.tag value (some (Token.tag value none).source)] := by
  have spells : Spells [.tag value none] [.tag value.body] := .cons (spells_canonical formed) .nil
  have read := parse_of_spells spells ⟨Span.closed_canonical formed, trivial⟩
  have written : source [.tag value none] = (Token.tag value none).source := by simp [source, String.join]
  rwa [written] at read

/-- An expression is read back from its canonical tag, as the only token, if and only
    if it is well formed; and every expression of a template that was read is. -/
theorem parse_canonical_iff (value : Expression) :
    (value.WellFormed ↔
        parse (Token.tag value none).source = .ok [.tag value (some (Token.tag value none).source)]) ∧
      ∀ text template span, parse text = .ok template → .tag value span ∈ template →
        value.WellFormed ∧
          parse (Token.tag value none).source = .ok [.tag value (some (Token.tag value none).source)] := by
  have image : ∀ {text : String} {template : Template} {span : Option String},
      parse text = .ok template → .tag value span ∈ template → value.WellFormed := by
    intro text template span read member
    exact wellFormed_of_spells (spells_of_parse read).1 member
  refine ⟨⟨parse_canonical, fun read => image read List.mem_cons_self⟩, ?_⟩
  intro text template span read member
  exact ⟨image read member, parse_canonical (image read member)⟩

/-- An argument in single quotes that ends in a backslash, and holds a closer, a quote
    and a line break, is written in double quotes and read back. -/
theorem parse_canonical_backslash :
    let value : Expression := .call "f" [⟨"a", .text "]\x7d\"\n\\"⟩, ⟨"true", .bool true⟩, ⟨"b", .variable "x.y-1"⟩]
    let span := "$\x7b[f(a=']\x7d\"\\n\\\\' , true : true,b=x.y-1, )]\x7d"
    parse ("\\\\" ++ span) = .ok [.raw "\\\\", .tag value (some span)] ∧ value.WellFormed ∧
      parse (Token.tag value none).source = .ok [.tag value (some (Token.tag value none).source)] := by
  intro value span
  have read : parse ("\\\\" ++ span) = .ok [.raw "\\\\", .tag value (some span)] := by cbv
  exact ⟨read, (parse_canonical_iff value).2 _ _ _ read (List.mem_cons_of_mem _ List.mem_cons_self)⟩

end Template

end RequestTemplate
