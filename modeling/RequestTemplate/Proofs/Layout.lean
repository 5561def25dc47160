import RequestTemplate.Proofs.Placed
import RequestTemplate.Proofs.Tags

/-!
# The layout of templates

The layout changes the blanks before its tokens and nothing else: `seams` lists
the tokens with the blanks before them in the source and in the layout
(`text_old_seams`, `text_new_seams`). `tags_format_iff` says exactly which
templates keep their tags when they are laid out.
-/

namespace RequestTemplate.Markup
open Delimiter
open Text (isBlank)

/-- The blanks before the tokens of a line: all stand before the first. -/
def Line.leads (unit : String) (line : Line) : List (List Char) :=
  match line.tokens with
  | [] => []
  | _ :: rest => ('\n' :: (List.replicate line.depth unit.toList).flatten) :: rest.map fun _ => []

/-- The blanks before the tokens of the lines. Nothing breaks the line before the
    first. -/
def leads (unit : String) (lines : List Line) : List (List Char) :=
  (lines.flatMap (Line.leads unit)).modifyHead List.tail

/-- A token between the blanks of the source and those of the layout. -/
def Seam.ofPlace (place : List Char × Token) (new : List Char) : Seam :=
  ⟨place.1, new, place.2.raw.toList⟩

/-- The tokens that are laid out, with the blanks before each of them. -/
def seams (source unit : String) : List Seam :=
  List.zipWith Seam.ofPlace (placed [] (tokens source)) (leads unit (layout source))

/-- Blanks change only outside tags, and nowhere between an opener and the
    backslash that hides it. -/
def KeepsTags (source unit : String) : Prop :=
  ∀ front seam rest, seams source unit = front ++ seam :: rest → seam.old ≠ seam.new →
    Span.inside (Seam.text Seam.old front) = false ∧
      ¬(oddBehind false (Seam.text Seam.old front ++ seam.old) = true ∧ opens seam.raw = true)

/-! ## The lines of the layout -/

/-- What stands on one line. -/
inductive OneLine : List Token → Prop
  | token (token : Token) : OneLine [token]
  | element {opening content closing : Token} (opens : opening.kind = .opening) (text : content.kind = .text)
      (closes : closing.kind = .closing) : OneLine [opening, content, closing]

/-- An element on one line is an opening tag, text and a closing tag. -/
theorem kinds_of_fitsLine {opening content closing : Token} {rest : List Token}
    (fits : fitsLine (opening :: content :: closing :: rest) = true) :
    opening.kind = .opening ∧ content.kind = .text ∧ closing.kind = .closing := by
  simp only [fitsLine, Bool.and_eq_true, beq_iff_eq] at fits
  exact ⟨fits.1.1.1.1, fits.1.1.1.2, fits.1.1.2⟩

theorem exists_of_fitsLine {token : Token} {rest : List Token} (fits : fitsLine (token :: rest) = true) :
    ∃ content closing others, rest = content :: closing :: others := by
  rcases rest with _ | ⟨content, _ | ⟨closing, others⟩⟩
  · simp [fitsLine] at fits
  · simp [fitsLine] at fits
  · exact ⟨content, closing, others, rfl⟩

theorem oneLine_of_mem_grouped {ts group : List Token} (member : group ∈ grouped ts) : OneLine group := by
  fun_induction grouped ts with
  | case1 => simp at member
  | case2 token rest fits ih =>
    rcases List.mem_cons.1 member with rfl | member
    · obtain ⟨content, closing, others, rfl⟩ := exists_of_fitsLine fits
      obtain ⟨opens, text, closes⟩ := kinds_of_fitsLine fits
      exact .element opens text closes
    · exact ih member
  | case3 token rest _ ih =>
    rcases List.mem_cons.1 member with rfl | member
    · exact .token token
    · exact ih member

theorem oneLine_of_mem_layout {source : String} {line : Line} (member : line ∈ layout source) : OneLine line.tokens := by
  have grouped : line.tokens ∈ (layout source).map Line.tokens := List.mem_map_of_mem member
  rw [layout, tokens_arrange] at grouped
  exact oneLine_of_mem_grouped grouped

theorem exists_of_mem_layout {source : String} {line : Line} (member : line ∈ layout source) :
    ∃ token rest, line.tokens = token :: rest ∧ ∀ next ∈ rest, next.kind ≠ .template := by
  have one := oneLine_of_mem_layout member
  generalize line.tokens = group at one ⊢
  cases one with
  | token token => exact ⟨token, [], rfl, by simp⟩
  | element opens text closes => exact ⟨_, _, rfl, by simp [text, closes]⟩

theorem tokens_layout (source : String) :
    (layout source).flatMap Line.tokens = significant (tokens source) := by
  rw [layout, List.flatMap_def, tokens_arrange, flatten_grouped]

/-- The blanks before a token in the layout; a template begins a line. -/
def Leads (token : Token) (new : List Char) : Prop :=
  Blank new ∧ (token.kind = .template → new ≠ [])

theorem leads_line {unit : String} (blank : Blank unit.toList) {line : Line} {token : Token}
    {rest : List Token} (split : line.tokens = token :: rest)
    (single : ∀ next ∈ rest, next.kind ≠ .template) :
    List.Forall₂ Leads line.tokens (line.leads unit) := by
  rw [Line.leads, split]
  refine .cons ⟨fun c member => ?_, fun _ => by simp⟩ ?_
  · simp only [List.mem_cons, List.mem_flatten, List.mem_replicate] at member
    rcases member with rfl | ⟨_, ⟨-, rfl⟩, member⟩
    · decide
    · exact blank c member
  · clear split
    induction rest with
    | nil => exact .nil
    | cons next rest ih =>
      obtain ⟨here, later⟩ := List.forall_mem_cons.1 single
      exact .cons ⟨by simp [Blank], fun template => absurd template here⟩ (ih later)

theorem leads_lines {unit : String} (blank : Blank unit.toList) {lines : List Line}
    (shaped : ∀ line ∈ lines, ∃ token rest, line.tokens = token :: rest ∧
      ∀ next ∈ rest, next.kind ≠ .template) :
    List.Forall₂ Leads (lines.flatMap Line.tokens) (lines.flatMap (Line.leads unit)) := by
  induction lines with
  | nil => exact .nil
  | cons line lines ih =>
    obtain ⟨⟨token, rest, split, single⟩, later⟩ := List.forall_mem_cons.1 shaped
    exact List.rel_append (leads_line blank split single) (ih later)

theorem chained_zipWith {behind : Bool} {places : List (List Char × Token)} {news : List (List Char)}
    (linked : Linked behind places) (leads : List.Forall₂ Leads (places.map Prod.snd) news) :
    Seam.Chained behind (List.zipWith Seam.ofPlace places news) := by
  induction places generalizing behind news with
  | nil => trivial
  | cons place places ih =>
    cases leads with
    | cons here later =>
      obtain ⟨⟨blank, visible, joins⟩, linked⟩ := linked
      refine ⟨⟨blank, here.1, visible, ?_⟩, ih linked later⟩
      exact joins.imp_right fun joins => joins.imp_right fun template => ⟨template.2, here.2 template.1⟩

/-- The tokens are told apart on both sides. -/
theorem chained_seams (source : String) {unit : String} (blank : Blank unit.toList) :
    Seam.Chained true (seams source unit) := by
  have linked : Linked true (placed [] (tokens source)) := linked_placed (by simp [Blank]) (.inl rfl)
  have lines := leads_lines blank fun line (member : line ∈ layout source) => exists_of_mem_layout member
  rw [tokens_layout, ← placed_snd []] at lines
  rw [seams, leads]
  generalize placed [] (tokens source) = places at linked lines
  generalize (layout source).flatMap (Line.leads unit) = news at lines
  -- The first lead loses its line break, and what stands before it is sealed.
  cases places with
  | nil => trivial
  | cons place places =>
    cases lines with
    | cons here later =>
      have blank : Blank _ := fun c member => here.1 c (List.mem_of_mem_tail member)
      exact ⟨⟨linked.1.blank, blank, linked.1.visible, .inl rfl⟩, chained_zipWith linked.2 later⟩

/-! ## The two sides of the seams -/

theorem length_leads (source : String) {unit : String} (blank : Blank unit.toList) :
    (leads unit (layout source)).length = (placed [] (tokens source)).length := by
  have lines := leads_lines blank fun line (member : line ∈ layout source) => exists_of_mem_layout member
  rw [tokens_layout, ← placed_snd []] at lines
  rw [leads, List.length_modifyHead, ← lines.length_eq, List.length_map]

/-- The seams hold the source, but for blanks at its end. -/
theorem text_old_seams (source : String) {unit : String} (blank : Blank unit.toList) :
    ∃ tail, Blank tail ∧ Seam.text Seam.old (seams source unit) ++ tail = source.toList := by
  have none : Blank [] := by simp [Blank]
  obtain ⟨tail, blankTail, eq⟩ := text_placed none (tokens source)
  refine ⟨tail, blankTail, ?_⟩
  rw [List.nil_append, raw_tokens] at eq
  rw [← eq, seams]
  congr 1
  have lengths := length_leads source blank
  generalize placed [] (tokens source) = places at lengths
  generalize leads unit (layout source) = news at lengths
  induction places generalizing news with
  | nil => rfl
  | cons place places ih =>
    cases news with
    | nil => simp at lengths
    | cons new news =>
      rw [List.zipWith_cons_cons, Seam.text_cons, ih news (by simpa using lengths)]
      rfl

theorem text_new_zipWith (places : List (List Char × Token)) (news : List (List Char)) :
    Seam.text Seam.new (List.zipWith Seam.ofPlace places news) =
      (List.zipWith (fun token new => new ++ token.raw.toList) (places.map Prod.snd) news).flatten := by
  induction places generalizing news with
  | nil => rfl
  | cons place places ih =>
    cases news with
    | nil => rfl
    | cons new news => simp [ih, Seam.ofPlace]

theorem flatten_line {unit : String} {line : Line} {token : Token} {rest : List Token}
    (split : line.tokens = token :: rest) :
    (List.zipWith (fun token new => new ++ token.raw.toList) line.tokens (line.leads unit)).flatten =
      '\n' :: (line.text unit).toList := by
  have onward : (List.zipWith (fun token new => new ++ token.raw.toList) rest
      (rest.map fun _ => [])).flatten = rest.flatMap fun token => token.raw.toList := by
    clear split
    induction rest with
    | nil => rfl
    | cons next rest ih =>
      rw [List.map_cons, List.zipWith_cons_cons, List.flatten_cons, ih, List.nil_append, List.flatMap_cons]
  rw [Line.leads, Line.text, split, List.zipWith_cons_cons, List.flatten_cons, onward]
  simp [String.toList_join, List.flatMap_def, Function.comp_def]

theorem flatten_lines (unit : String) {lines : List Line}
    (shaped : ∀ line ∈ lines, ∃ token rest, line.tokens = token :: rest ∧
      ∀ next ∈ rest, next.kind ≠ .template) :
    (List.zipWith (fun token new => new ++ token.raw.toList) (lines.flatMap Line.tokens)
      (lines.flatMap (Line.leads unit))).flatten =
      lines.flatMap fun line => '\n' :: (line.text unit).toList := by
  induction lines with
  | nil => rfl
  | cons line lines ih =>
    obtain ⟨⟨token, rest, split, -⟩, later⟩ := List.forall_mem_cons.1 shaped
    have lengths : line.tokens.length = (line.leads unit).length := by simp [Line.leads, split]
    rw [List.flatMap_cons, List.flatMap_cons, List.zipWith_append lengths, List.flatten_append,
      flatten_line split, ih later, List.flatMap_cons]

theorem tail_flatMap (lines : List (List Char)) :
    (lines.flatMap fun line => '\n' :: line).tail = ['\n'].intercalate lines := by
  induction lines with
  | nil => rfl
  | cons line lines ih =>
    cases lines with
    | nil => simp
    | cons next lines =>
      rw [List.intercalate_cons_cons, ← ih]
      simp

/-- The seams hold the layout. -/
theorem text_new_seams (source unit : String) :
    Seam.text Seam.new (seams source unit) = (format source unit).toList := by
  have shaped := fun line (member : line ∈ layout source) => exists_of_mem_layout member
  have lines := flatten_lines unit shaped
  have joined := tail_flatMap ((layout source).map fun line => (line.text unit).toList)
  rw [List.flatMap_map, ← lines] at joined
  rw [format, String.toList_intercalate, List.map_map, show "\n".toList = ['\n'] from rfl,
    Function.comp_def, ← joined, seams, leads, text_new_zipWith, placed_snd, ← tokens_layout]
  clear joined lines
  cases lines : layout source with
  | nil => rfl
  | cons line others =>
    obtain ⟨token, rest, split, -⟩ := shaped line (by simp [lines])
    simp [Line.leads, split]

/-! ## Which layouts keep the tags -/

theorem keepsTags_iff (source unit : String) :
    KeepsTags source unit ↔
      (∀ front seam rest, seams source unit = front ++ seam :: rest → seam.old ≠ seam.new →
          ((Place.text false).after (Seam.text Seam.old front)).inside = false) ∧
        Seam.bared false (seams source unit) = 0 := by
  simp only [KeepsTags, Seam.bared_eq_zero_iff, Seam.Bares, Place.inside_after, oddBehind_append]
  constructor
  · intro keeps
    exact ⟨fun front seam rest split moved => (keeps front seam rest split moved).1,
      fun front seam rest split bares => (keeps front seam rest split bares.1).2 bares.2⟩
  · rintro ⟨outside, hidden⟩ front seam rest split moved
    exact ⟨outside front seam rest split moved, fun bares => hidden front seam rest split ⟨moved, bares⟩⟩

/-- Blanks at the end of a source belong to no tag. -/
theorem bodies_append_blank {s tail : List Char} (blank : Blank tail)
    (closed : Span.inside (s ++ tail) = false) :
    Span.inside s = false ∧ Span.bodies s = Span.bodies (s ++ tail) := by
  have fresh : (Place.text false).Tracks false := rfl
  have tracks := Place.tracks_after fresh s
  have outside : ((Place.text false).after s).inside = false := by
    rw [← Place.inside_after_of_blank tracks blank, ← Place.after_append, Place.inside_after, closed]
  have ended : Span.inside s = false := by rw [← Place.inside_after, outside]
  refine ⟨ended, Place.marked_injective ?_⟩
  rw [← Place.trace_eq_marked ended, ← Place.trace_eq_marked closed, Place.trace_append,
    Place.trace_of_blank tracks blank, outside]
  simp

/-- A template that is laid out is read back with the same tags if and only if
    its layout keeps them. -/
theorem tags_format_iff {source unit : String} (blank : ∀ c ∈ unit.toList, isBlank c = true)
    {template : Template} (read : Template.parse source = .ok template) :
    (∃ formatted, Template.parse (format source unit) = .ok formatted ∧ formatted.tags = template.tags) ↔
      KeepsTags source unit := by
  obtain ⟨tail, blankTail, whole⟩ := text_old_seams source blank
  have chained := chained_seams source blank
  have closed := Template.inside_of_parse read
  rw [← whole] at closed
  obtain ⟨closed, same⟩ := bodies_append_blank blankTail closed
  rw [whole] at same
  have stands : (Place.text false).Stands true false := ⟨rfl, fun _ => rfl⟩
  have traces := Seam.trace_text_iff chained stands
  have counts : live false (Seam.text Seam.new (seams source unit)) =
      live false (Seam.text Seam.old (seams source unit)) + Seam.bared false (seams source unit) :=
    Seam.live_text chained fun _ => rfl
  rw [keepsTags_iff]
  constructor
  · rintro ⟨formatted, reread, kept⟩
    have closedNew := Template.inside_of_parse reread
    have sameNew := (Template.tags_eq_iff read reread).1 kept
    rw [← text_new_seams] at closedNew sameNew
    rw [← same] at sameNew
    have bare : Seam.bared false (seams source unit) = 0 := by
      rw [Template.live_eq_sum closedNew, Template.live_eq_sum closed, sameNew] at counts
      omega
    refine ⟨(traces bare).1 ?_, bare⟩
    rw [Place.trace_eq_marked closedNew, Place.trace_eq_marked closed, sameNew]
  · rintro ⟨outside, bare⟩
    have landed := Seam.after_text chained stands bare
    have closedNew : Span.inside (Seam.text Seam.new (seams source unit)) = false := by
      rw [← Place.inside_after, landed, Place.inside_after, closed]
    have traced := (traces bare).2 outside
    rw [Place.trace_eq_marked closedNew, Place.trace_eq_marked closed] at traced
    have sameNew := (Place.marked_injective traced).trans same
    rw [text_new_seams] at closedNew sameNew
    obtain ⟨formatted, reread⟩ := Template.parse_of_bodies read closedNew sameNew
    exact ⟨formatted, reread, (Template.tags_eq_iff read reread).2 sameNew⟩

/-- Tags keep their places in attributes, behind markup and behind an even run of
    backslashes. -/
theorem keepsTags_attributes :
    let source := "<a x='$\x7b[ b(v: \"]\x7d  <\") ]\x7d' y='\\$\x7b['> $\x7b[ c ]\x7d \\\\$\x7b[ d ]\x7d</a>"
    let template : Template :=
      [.raw "<a x='", .tag (.call "b" [⟨"v", .text "]\x7d  <"⟩]) (some "$\x7b[ b(v: \"]\x7d  <\") ]\x7d"),
        .raw "' y='$\x7b['> ", .tag (.variable "c") (some "$\x7b[ c ]\x7d"), .raw " \\\\",
        .tag (.variable "d") (some "$\x7b[ d ]\x7d"), .raw "</a>"]
    (∀ c ∈ "\t".toList, isBlank c = true) ∧ Template.parse source = .ok template ∧
      KeepsTags source "\t" := by
  intro source template
  have blank : ∀ c ∈ "\t".toList, isBlank c = true := List.all_eq_true.1 (by decide)
  have read : Template.parse source = .ok template := by cbv
  have reread : Template.parse (format source "\t") =
      .ok [.raw "<a x='", .tag (.call "b" [⟨"v", .text "]\x7d  <"⟩]) (some "$\x7b[ b(v: \"]\x7d  <\") ]\x7d"),
        .raw "' y='$\x7b['>\n\t", .tag (.variable "c") (some "$\x7b[ c ]\x7d"), .raw "\n\t\\\\\n\t",
        .tag (.variable "d") (some "$\x7b[ d ]\x7d"), .raw "\n</a>"] := by cbv
  exact ⟨blank, read, (tags_format_iff blank read).1 ⟨_, reread, rfl⟩⟩

/-- A closer in quoted text ends a template too early for the layout, which trims
    what stands behind it; and a line break takes the backslash from an opener. -/
theorem tags_format_ne :
    (∃ template, Template.parse "$\x7b[ f(a: \"]\x7d  b\") ]\x7d" = .ok template ∧
      ∀ formatted, Template.parse (format "$\x7b[ f(a: \"]\x7d  b\") ]\x7d" "  ") = .ok formatted →
        formatted.tags ≠ template.tags) ∧
      ∃ template, Template.parse "\\$\x7b[ a ]\x7d" = .ok template ∧
        ∀ formatted, Template.parse (format "\\$\x7b[ a ]\x7d" "  ") = .ok formatted →
          formatted.tags ≠ template.tags := by
  have quoted : Template.parse "$\x7b[ f(a: \"]\x7d  b\") ]\x7d" =
      .ok [.tag (.call "f" [⟨"a", .text "]\x7d  b"⟩]) (some "$\x7b[ f(a: \"]\x7d  b\") ]\x7d")] := by cbv
  have trimmed : Template.parse (format "$\x7b[ f(a: \"]\x7d  b\") ]\x7d" "  ") =
      .ok [.tag (.call "f" [⟨"a", .text "]\x7d\nb"⟩]) (some "$\x7b[ f(a: \"]\x7d\nb\") ]\x7d")] := by cbv
  have hidden : Template.parse "\\$\x7b[ a ]\x7d" = .ok [.raw "$\x7b[ a ]\x7d"] := by cbv
  have bared : Template.parse (format "\\$\x7b[ a ]\x7d" "  ") =
      .ok [.raw "\\\n", .tag (.variable "a") (some "$\x7b[ a ]\x7d")] := by cbv
  refine ⟨⟨_, quoted, fun formatted reread => ?_⟩, _, hidden, fun formatted reread => ?_⟩
  · obtain rfl := Except.ok.inj (trimmed.symm.trans reread)
    decide
  · obtain rfl := Except.ok.inj (bared.symm.trans reread)
    decide

end RequestTemplate.Markup
