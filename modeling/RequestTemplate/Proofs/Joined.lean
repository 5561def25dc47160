import RequestTemplate.Proofs.Source
import RequestTemplate.Render.Template

/-!
# Texts side by side

Text that is put in the place of a tag stands beside the text around it.
`merged` joins such texts, which changes nothing about what is rendered
(`tokens_merged`). What is written is read back as the merged template if and
only if the texts join (`joins_iff`).
-/

namespace RequestTemplate
open Delimiter

/-- A tag that is read back as it is written. -/
structure Token.Intact (token : Token) : Prop where
  settled : token.settled = token
  spells : ∃ body, token.Spells (.tag body) ∧ Span.Closed body

namespace Template

/-- Puts text before a template, and joins it to the text that the template
    begins with. -/
def prepend (content : String) : Template → Template
  | .raw more :: rest => .raw (content ++ more) :: rest
  | rest => if content = "" then rest else .raw content :: rest

/-- The template without empty texts and without texts side by side. -/
def merged : Template → Template
  | [] => []
  | .raw content :: rest => prepend content (merged rest)
  | .tag value span :: rest => .tag value span :: merged rest

/-- No text hides an opener of its own, or the tag that follows it. -/
def Writable : Template → Prop
  | [] => True
  | .raw content :: rest =>
    hidden false content.toList = 0 ∧ (rest ≠ [] → oddBehind false content.toList = false) ∧ Writable rest
  | .tag _ _ :: rest => Writable rest

/-- Texts side by side are written as their joined text is, and that text can be
    written. -/
def Joins (template : Template) : Prop :=
  source template = source (merged template) ∧ Writable (merged template)

/-- Every tag is read back as it is written. -/
def Intact (template : Template) : Prop :=
  ∀ value span, .tag value span ∈ template → (Token.tag value span).Intact

/-- No text is empty or meets another one. -/
def Unbroken : Template → Prop
  | [] => True
  | .raw content :: rest => content ≠ "" ∧ (∀ more, rest.head? ≠ some (.raw more)) ∧ Unbroken rest
  | .tag _ _ :: rest => Unbroken rest

/-! ## Merged templates -/

theorem unbroken_prepend (content : String) {template : Template} (unbroken : Unbroken template) :
    Unbroken (prepend content template) := by
  unfold prepend
  split
  · obtain ⟨filled, apart, later⟩ := unbroken
    exact ⟨by simp [filled], apart, later⟩
  · rename_i other
    split
    · exact unbroken
    · rename_i filled
      refine ⟨filled, fun more first => ?_, unbroken⟩
      obtain ⟨rest, rfl⟩ := List.head?_eq_some_iff.1 first
      exact other more rest rfl

theorem unbroken_merged (template : Template) : Unbroken (merged template) := by
  induction template with
  | nil => trivial
  | cons token rest ih =>
    cases token with
    | raw content => exact unbroken_prepend content ih
    | tag value span => exact ih

theorem mem_prepend {value : Expression} {span : Option String} {content : String} {template : Template}
    (member : .tag value span ∈ prepend content template) : .tag value span ∈ template := by
  unfold prepend at member
  split at member
  · simpa using member
  · split at member
    · exact member
    · simpa using member

theorem mem_merged {value : Expression} {span : Option String} {template : Template}
    (member : .tag value span ∈ merged template) : .tag value span ∈ template := by
  induction template with
  | nil => exact member
  | cons token rest ih =>
    cases token with
    | raw content => exact .tail _ (ih (mem_prepend member))
    | tag other otherSpan =>
      rcases List.mem_cons.1 member with same | later
      · exact List.mem_cons.2 (.inl same)
      · exact .tail _ (ih later)

/-! ## Templates that are read back -/

theorem Intact.tail {token : Token} {rest : Template} (intact : Intact (token :: rest)) : Intact rest :=
  fun value span member => intact value span (.tail _ member)

theorem intact_of_spells {template : Template} {spans : List Span} (spells : Spells template spans)
    (proper : Span.Proper spans) (same : settled template = template) : Intact template := by
  intro value span member
  induction spells with
  | nil => simp at member
  | @cons token first rest others head tail ih =>
    obtain ⟨here, later⟩ := List.cons.inj same
    rcases List.mem_cons.1 member with rfl | member
    · cases head with
      | tag read written => exact ⟨here, _, .tag read written, proper.1⟩
    · cases first with
      | text s => exact ih proper.2.2.2 later member
      | tag body => exact ih proper.2 later member
      | unclosed s => cases head

theorem intact_of_parse {text : String} {template : Template} (read : parse text = .ok template) :
    Intact template := by
  obtain ⟨spells, same⟩ := spells_of_parse read
  exact intact_of_spells spells (Span.proper_spans _) same

theorem intact_merged {template : Template} (intact : Intact template) : Intact (merged template) :=
  fun value span member => intact value span (mem_merged member)

theorem settled_of_intact {template : Template} (intact : Intact template) :
    settled template = template := by
  have kept : ∀ token ∈ template, token.settled = id token := by
    intro token member
    cases token with
    | raw content => rfl
    | tag value span => exact (intact value span member).settled
  exact (List.map_congr_left kept).trans (List.map_id template)

theorem exists_spans {template : Template} (unbroken : Unbroken template) (writable : Writable template)
    (intact : Intact template) : ∃ spans, Spells template spans ∧ Span.Proper spans := by
  induction template with
  | nil => exact ⟨[], .nil, trivial⟩
  | cons token rest ih =>
    cases token with
    | tag value span =>
      obtain ⟨-, body, spells, closed⟩ := intact value span (by simp)
      obtain ⟨spans, others, proper⟩ := ih unbroken writable intact.tail
      exact ⟨.tag body :: spans, .cons spells others, closed, proper⟩
    | raw content =>
      obtain ⟨filled, apart, unbroken⟩ := unbroken
      obtain ⟨bare, even, writable⟩ := writable
      obtain ⟨spans, others, proper⟩ := ih unbroken writable intact.tail
      have shown := unescapeFrom_escapeFrom bare
      refine ⟨.text (escapeFrom false content.toList) :: spans, .cons (.raw shown rfl) others, ?_,
        live_escapeFrom false _, ?_, proper⟩
      · intro none
        rw [none] at shown
        exact filled (by simpa [unescapeFrom] using shown.symm)
      · cases others with
        | nil => trivial
        | cons head tail =>
          cases head with
          | raw shown written => exact absurd rfl (apart _)
          | tag read written =>
            show oddBehind false _ = false
            rw [oddBehind_escapeFrom, even (by simp)]

theorem writable_of_spells {template : Template} {spans : List Span} (spells : Spells template spans)
    (proper : Span.Proper spans) : Writable template := by
  induction spells with
  | nil => trivial
  | cons head tail ih =>
    cases head with
    | tag read written => exact ih proper.2
    | @raw content s shown written =>
      obtain ⟨-, -, follows, proper⟩ := proper
      have bare := hidden_unescapeFrom false s
      refine ⟨by simpa [shown] using bare, fun more => ?_, ih proper⟩
      rw [← shown, oddBehind_unescapeFrom]
      cases tail with
      | nil => exact absurd rfl more
      | cons next others =>
        cases next with
        | raw shown written => exact follows.elim
        | tag read written => exact follows

/-- What is written is read back as the merged template if and only if the texts
    of the template join. -/
theorem joins_iff {template : Template} (intact : Intact template) :
    Joins template ↔ parse (source template) = .ok (merged template) := by
  have mergedIntact := intact_merged intact
  constructor
  · rintro ⟨written, writable⟩
    obtain ⟨spans, spells, proper⟩ := exists_spans (unbroken_merged template) writable mergedIntact
    rw [written, parse_of_spells spells proper, settled_of_intact mergedIntact]
  · intro read
    obtain ⟨spells, -⟩ := spells_of_parse read
    refine ⟨?_, writable_of_spells spells (Span.proper_spans _)⟩
    have written := toList_source spells
    rw [Span.source_spans] at written
    exact (String.toList_inj.1 written).symm

end Template

/-! ## Rendering -/

namespace Renderer

variable {σ : Type} (r : Renderer σ) (expand : String → Pass Event σ String)

theorem tokens_raw (content : String) (template : Template) :
    r.tokens expand (.raw content :: template) = (content ++ ·) <$> r.tokens expand template := by
  rw [tokens, map_eq_pure_bind]

theorem tokens_prepend (content : String) (template : Template) :
    r.tokens expand (template.prepend content) = (content ++ ·) <$> r.tokens expand template := by
  unfold Template.prepend
  split
  · simp [tokens_raw, String.append_assoc]
  · split
    · rename_i empty
      simp [empty]
    · exact tokens_raw r expand content template

/-- Joining texts changes nothing about what is rendered. -/
theorem tokens_merged (template : Template) :
    r.tokens expand template.merged = r.tokens expand template := by
  induction template with
  | nil => rfl
  | cons token rest ih =>
    cases token with
    | raw content => rw [Template.merged, tokens_prepend, ih, tokens_raw]
    | tag value span => rw [Template.merged, tokens, ih, tokens]

end Renderer

end RequestTemplate
