import RequestTemplate.Proofs.Placed

/-!
# Tokens that are cut again

Where a token has met its end, what stands behind it does not matter
(`splitFirst_of_closed`), and text ends where markup or a template begins. So the
tokens that are laid out can be written one after the other, with any blanks before
them, and are cut where they were cut before (`significant_interleaved`).
-/

namespace RequestTemplate

/-! ## Trimmed text -/

namespace Text

theorem trim_blank_append {blanks : List Char} (blank : Blank blanks) (s : List Char) :
    trim (blanks ++ s) = trim s := by
  rw [trim, strip, List.dropWhile_append_of_pos blank, trim, strip]

theorem trim_append_blank {blanks : List Char} (blank : Blank blanks) (s : List Char) :
    trim (s ++ blanks) = trim s := by
  have backwards : ∀ c ∈ blanks.reverse, isBlank c = true := fun c member => blank c (by simpa using member)
  rw [trim, strip, List.dropWhile_append, trim, strip]
  split
  · rename_i none
    rw [List.isEmpty_iff.1 none, List.dropWhile_eq_nil_iff.2 blank]
  · rw [List.reverse_append, List.dropWhile_append_of_pos backwards]

theorem trim_trim (s : List Char) : trim (trim s) = trim s := by
  have front : (trim s).dropWhile isBlank = trim s := by
    by_cases none : trim s = []
    · simp [none]
    · obtain ⟨c, rest, eq, visible⟩ := Markup.visible_trim none
      simp [eq, visible]
  rw [trim, strip, front]
  simp [trim, strip, List.dropWhile_idempotent]

end Text

namespace Markup
open Delimiter
open Text (isBlank)

/-! ## Text and what begins behind it -/

/-- Text in which nothing but the text begins. -/
def Plain (s : List Char) : Prop := toNextToken s = (s, [])

/-- What text ends at: markup, a template, or the end. -/
def Begins (s : List Char) : Prop := s = [] ∨ s.head? = some '<' ∨ opens s = true

theorem apart_of_begins {s : List Char} (begins : Begins s) : Apart s := by
  rcases begins with rfl | head | opening
  · exact apart_nil
  · intro c member
    rw [head] at member
    cases member
    decide
  · exact apart_of_opens opening

theorem apart_of_blank {s : List Char} (blank : Blank s) : Apart s := by
  intro c member
  have here := blank c (List.mem_of_head? member)
  exact ⟨ne_of_isBlank here (by decide), ne_of_isBlank here (by decide), ne_of_isBlank here (by decide)⟩

theorem toNextToken_of_begins {s : List Char} (begins : Begins s) : toNextToken s = ([], s) := by
  cases s with
  | nil => rfl
  | cons c s => rw [toNextToken, if_pos (by simpa [Begins] using begins)]

theorem plain_cons {c : Char} {s : List Char} :
    Plain (c :: s) ↔ ¬(c = '<' ∨ opens (c :: s) = true) ∧ Plain s := by
  unfold Plain
  rw [toNextToken]
  split
  · rename_i stops
    simp [stops]
  · rename_i goes
    simp [goes, Prod.ext_iff]

/-- Text goes on into what stands apart behind it. -/
theorem toNextToken_of_plain {s t : List Char} (plain : Plain s) (apart : Apart t) :
    toNextToken (s ++ t) = (s ++ (toNextToken t).1, (toNextToken t).2) := by
  induction s with
  | nil => rfl
  | cons c s ih =>
    obtain ⟨goes, plain⟩ := plain_cons.1 plain
    rw [List.cons_append, toNextToken, opens_append_of_apart apart, if_neg goes, ih plain]
    rfl

theorem plain_toNextToken (s : List Char) : Plain (toNextToken s).1 := by
  induction s with
  | nil => rfl
  | cons c s ih =>
    rw [toNextToken]
    split
    · rfl
    · rename_i goes
      refine plain_cons.2 ⟨fun stops => goes (stops.imp_right fun opening => ?_), ih⟩
      have whole := opens_append_of_opens opening (toNextToken s).2
      rwa [List.cons_append, toNextToken_append] at whole

theorem plain_of_append {s t : List Char} (plain : Plain (s ++ t)) : Plain s ∧ Plain t := by
  induction s with
  | nil => exact ⟨rfl, plain⟩
  | cons c s ih =>
    obtain ⟨goes, later⟩ := plain_cons.1 plain
    obtain ⟨front, back⟩ := ih later
    exact ⟨plain_cons.2 ⟨fun stops => goes (stops.imp_right fun opening => opens_append_of_opens opening t),
      front⟩, back⟩

theorem plain_trim {s : List Char} (plain : Plain s) : Plain (Text.trim s) := by
  have parts := Token.parts ⟨.text, String.ofList s⟩
  simp only [Token.trim, String.toList_ofList, List.append_assoc] at parts
  rw [← parts] at plain
  exact (plain_of_append (plain_of_append plain).2).1

theorem plain_blank_append {blanks : List Char} (blank : Blank blanks) {s : List Char} (plain : Plain s) :
    Plain (blanks ++ s) := by
  induction blanks with
  | nil => exact plain
  | cons c blanks ih =>
    obtain ⟨here, later⟩ := List.forall_mem_cons.1 blank
    have markup : c ≠ '<' := ne_of_isBlank here (by decide)
    have dollar : c ≠ '$' := ne_of_isBlank here (by decide)
    exact plain_cons.2 ⟨by simp [markup, opens_cons_of_ne dollar], ih later⟩

theorem plain_append_blank {s : List Char} (plain : Plain s) {blanks : List Char} (blank : Blank blanks) :
    Plain (s ++ blanks) := by
  have apart := plain_blank_append blank (s := []) rfl
  rw [List.append_nil] at apart
  rw [Plain, toNextToken_of_plain plain (apart_of_blank blank), apart]

theorem rule_of_text {s : List Char} (other : s.head? ≠ some '<') (literal : opens s = false) :
    rule s = ⟨.text, 1, .nextToken⟩ := by
  rcases rule_cases s with ⟨text, -, -⟩ | ⟨-, opening⟩ | ⟨-, -, markup, -⟩
  · exact text
  · exact absurd (literal.symm.trans opening) (by decide)
  · exact absurd markup other

theorem splitFirst_of_text {c : Char} {s : List Char} (goes : ¬(c = '<' ∨ opens (c :: s) = true)) :
    rule (c :: s) = ⟨.text, 1, .nextToken⟩ ∧ splitFirst (c :: s) = toNextToken (c :: s) := by
  obtain ⟨markup, literal⟩ := not_or.1 goes
  have text := rule_of_text (s := c :: s) (by simpa using markup) (by simpa using literal)
  refine ⟨text, ?_⟩
  rw [toNextToken, if_neg goes]
  simp [splitFirst, text, Ending.split]

/-! ## Tokens that have met their ends -/

/-- What a text begins with, marker by marker. -/
theorem rule_eq (s : List Char) :
    rule s =
      if ['$', '{', '['] <+: s then ⟨.template, 3, .marker [']', '}']⟩
      else if ['<', '!', '-', '-'] <+: s then ⟨.comment, 4, .marker ['-', '-', '>']⟩
      else if ['<', '!', '[', 'C', 'D', 'A', 'T', 'A', '['] <+: s then ⟨.cdata, 9, .marker [']', ']', '>']⟩
      else if ['<', '?'] <+: s then ⟨.instruction, 2, .marker ['?', '>']⟩
      else if ['<', '!'] <+: s then ⟨.declaration, 2, .marker ['>']⟩
      else if ['<', '/'] <+: s then ⟨.closing, 2, .bracket⟩
      else if ['<'] <+: s then ⟨.opening, 1, .bracket⟩
      else ⟨.text, 1, .nextToken⟩ := by
  split_ifs with template comment cdata instruction declaration closing opening
  · obtain ⟨tail, rfl⟩ := template
    rfl
  · obtain ⟨tail, rfl⟩ := comment
    rfl
  · obtain ⟨tail, rfl⟩ := cdata
    rfl
  · obtain ⟨tail, rfl⟩ := instruction
    rfl
  · obtain ⟨tail, rfl⟩ := declaration
    rw [List.cons_append, List.cons_append, List.nil_append, rule] <;> (rintro rest rfl; simp_all)
  · obtain ⟨tail, rfl⟩ := closing
    rfl
  · obtain ⟨tail, rfl⟩ := opening
    rw [List.cons_append, List.nil_append, rule] <;> (rintro rest rfl; simp_all)
  · unfold rule
    split <;> simp_all

/-- No marker that opens a token reaches beyond the end of one. -/
theorem prefix_append_iff {m s : List Char} (other : '>' ∉ m ∧ '}' ∉ m) (ends : sealed s = true)
    (t : List Char) : m <+: s ++ t ↔ m <+: s := by
  obtain ⟨front, c, rfl, last⟩ := exists_of_sealed ends
  have missing : c ∉ m := by rcases last with rfl | rfl <;> simp [other]
  refine ⟨fun starts => ?_, fun starts => starts.trans (List.prefix_append _ _)⟩
  rcases List.prefix_or_prefix_of_prefix starts (List.prefix_append _ t) with within | beyond
  · exact within
  · exact absurd (beyond.subset (by simp)) missing

theorem rule_append {s : List Char} (ends : sealed s = true) (t : List Char) : rule (s ++ t) = rule s := by
  have same {m : List Char} (other : '>' ∉ m ∧ '}' ∉ m) := prefix_append_iff other ends t
  rw [rule_eq, rule_eq]
  simp only [same (m := ['$', '{', '[']) (by decide), same (m := ['<', '!', '-', '-']) (by decide),
    same (m := ['<', '!', '[', 'C', 'D', 'A', 'T', 'A', '[']) (by decide), same (m := ['<', '?']) (by decide),
    same (m := ['<', '!']) (by decide), same (m := ['<', '/']) (by decide), same (m := ['<']) (by decide)]

theorem throughMarker_of_found {m s body rest : List Char} (found : throughMarker m s = (body, rest))
    (more : rest ≠ []) (t : List Char) : throughMarker m (body ++ t) = (body, t) := by
  induction s generalizing body with
  | nil =>
    obtain ⟨rfl, rfl⟩ := Prod.mk.inj found
    exact absurd rfl more
  | cons c s ih =>
    rw [throughMarker] at found
    split at found
    · obtain ⟨rfl, rfl⟩ := Prod.mk.inj found
      cases m with
      | nil => cases t <;> rfl
      | cons d m => simp [throughMarker]
    · rename_i goes
      obtain ⟨rfl, rfl⟩ := Prod.mk.inj found
      have ends : m <:+ (throughMarker m s).1 := throughMarker_ends more
      have whole := throughMarker_append m s
      rw [List.cons_append, throughMarker, if_neg, ih rfl]
      intro starts
      rw [List.isPrefixOf_iff_prefix] at goes starts
      refine goes ?_
      -- The marker stands in what is read, so it is too short to reach behind it.
      have within : m <+: c :: (throughMarker m s).1 :=
        List.prefix_of_prefix_length_le starts (List.prefix_append (c :: (throughMarker m s).1) t)
          (ends.length_le.trans (by simp))
      rw [← whole]
      exact within.trans (List.prefix_append (c :: (throughMarker m s).1) _)

theorem throughBracket_of_found {quote : Option Char} {s body rest : List Char}
    (found : throughBracket quote s = (body, rest)) (more : rest ≠ []) (t : List Char) :
    throughBracket quote (body ++ t) = (body, t) := by
  induction s generalizing quote body with
  | nil =>
    obtain ⟨rfl, rfl⟩ := Prod.mk.inj found
    exact absurd rfl more
  | cons c s ih =>
    cases quote with
    | some q =>
      simp only [throughBracket] at found
      obtain ⟨rfl, rfl⟩ := Prod.mk.inj found
      simp only [List.cons_append, throughBracket, ih rfl]
    | none =>
      simp only [throughBracket] at found
      split at found
      · rename_i bracket
        obtain ⟨rfl, rfl⟩ := Prod.mk.inj found
        simp [throughBracket, bracket]
      · rename_i other
        obtain ⟨rfl, rfl⟩ := Prod.mk.inj found
        simp only [List.cons_append, throughBracket, if_neg other, ih rfl]

theorem Ending.split_of_found {ending : Ending} (seals : ending.seals = true) {s body rest : List Char}
    (found : ending.split s = (body, rest)) (more : rest ≠ []) (t : List Char) :
    ending.split (body ++ t) = (body, t) := by
  cases ending with
  | marker m => exact throughMarker_of_found found more t
  | bracket => exact throughBracket_of_found found more t
  | nextToken => exact absurd seals (by decide)

theorem width_rule_le {s : List Char} (more : s ≠ []) : (rule s).width ≤ s.length := by
  have filled := List.length_pos_iff.2 more
  unfold rule
  split <;> simp_all
  omega

/-- A token is what opens it and what its end is found behind. -/
theorem splitFirst_eq_iff {s raw rest : List Char} :
    splitFirst s = (raw, rest) ↔
      ∃ body, (rule s).ending.split (s.drop (rule s).width) = (body, rest) ∧
        s.take (rule s).width ++ body = raw := by
  cases found : (rule s).ending.split (s.drop (rule s).width) with
  | mk body behind => simp [splitFirst, found, and_comm]

/-- A token that something stands behind is cut off again, whatever stands behind it. -/
theorem splitFirst_of_closed {s raw rest : List Char} (seals : (rule s).ending.seals = true)
    (first : splitFirst s = (raw, rest)) (more : rest ≠ []) (t : List Char) :
    rule (raw ++ t) = rule s ∧ splitFirst (raw ++ t) = (raw, t) := by
  have whole : raw ++ rest = s := by simpa [first] using splitFirst_append s
  have ends : sealed raw = true := by simpa [first] using sealed_splitFirst seals (by rwa [first])
  have filled : s ≠ [] := by
    rintro rfl
    exact more (List.append_eq_nil_iff.1 whole).2
  have same : rule (raw ++ t) = rule s := by rw [rule_append ends, ← whole, rule_append ends]
  refine ⟨same, ?_⟩
  have width : (s.take (rule s).width).length = (rule s).width := by simpa using width_rule_le filled
  obtain ⟨body, found, rfl⟩ := splitFirst_eq_iff.1 first
  rw [splitFirst_eq_iff, same, List.append_assoc, List.drop_left' width, List.take_left' width]
  exact ⟨body, Ending.split_of_found seals found more t, rfl⟩

/-! ## The tokens that are laid out -/

theorem tokensOf_of_splitFirst {s raw rest : List Char} (filled : s ≠ []) (first : splitFirst s = (raw, rest)) :
    tokensOf s = ⟨kindOf (rule s).kind raw, String.ofList raw⟩ :: tokensOf rest := by
  rw [tokensOf, dif_neg filled]
  split
  rename_i again
  obtain ⟨rfl, rfl⟩ := Prod.mk.inj (first.symm.trans again)
  rfl

theorem significant_cons (token : Token) (ts : List Token) :
    significant (token :: ts) = if token.trim.raw = "" then significant ts else token.trim :: significant ts := by
  by_cases dropped : token.trim.raw = "" <;> simp [significant, dropped]

theorem significant_of_text (raw : List Char) (ts : List Token) :
    significant (⟨.text, String.ofList raw⟩ :: ts) =
      if Text.trim raw = [] then significant ts
      else ⟨.text, String.ofList (Text.trim raw)⟩ :: significant ts := by
  simp [significant_cons, Token.trim]

theorem significant_of_markup {token : Token} (markup : token.kind ≠ .text) (filled : token.raw ≠ "")
    (ts : List Token) : significant (token :: ts) = token :: significant ts := by
  have whole : token.trim = token := by
    unfold Token.trim
    split
    · rename_i text
      exact absurd text markup
    · rfl
  rw [significant_cons, whole, if_neg filled]

/-- Text that ends where something begins is one token. -/
theorem tokensOf_plain {s t : List Char} (filled : s ≠ []) (plain : Plain s) (begins : Begins t) :
    tokensOf (s ++ t) = ⟨.text, String.ofList s⟩ :: tokensOf t := by
  have apart := apart_of_begins begins
  obtain ⟨c, s, rfl⟩ := List.exists_cons_of_ne_nil filled
  have goes := (plain_cons.1 plain).1
  rw [← opens_append_of_apart apart] at goes
  obtain ⟨text, first⟩ := splitFirst_of_text goes
  rw [← List.cons_append, toNextToken_of_plain plain apart, toNextToken_of_begins begins, List.append_nil] at first
  rw [tokensOf_of_splitFirst (by simp) first, List.cons_append, text]
  rfl

theorem significant_plain {s t : List Char} (plain : Plain s) (begins : Begins t) :
    significant (tokensOf (s ++ t)) =
      if Text.trim s = [] then significant (tokensOf t)
      else ⟨.text, String.ofList (Text.trim s)⟩ :: significant (tokensOf t) := by
  cases s with
  | nil => rfl
  | cons c s => rw [tokensOf_plain (by simp) plain begins, significant_of_text]

/-- A source begins with text, which may be empty, or with what is no text. -/
theorem exists_plain (s : List Char) : ∃ text rest, s = text ++ rest ∧ Plain text ∧ Begins rest :=
  ⟨_, _, (toNextToken_append s).symm, plain_toNextToken s, toNextToken_stops s⟩

/-- Blanks before a source belong to its first text, which loses them. -/
theorem significant_blank_append {blanks : List Char} (blank : Blank blanks) (s : List Char) :
    significant (tokensOf (blanks ++ s)) = significant (tokensOf s) := by
  obtain ⟨text, rest, rfl, plain, begins⟩ := exists_plain s
  rw [← List.append_assoc, significant_plain (plain_blank_append blank plain) begins,
    significant_plain plain begins, Text.trim_blank_append blank]

/-- Blanks behind a text belong to it, and it loses them. -/
theorem significant_plain_append {s : List Char} (plain : Plain s) (filled : s ≠ []) (trimmed : Text.trim s = s)
    {t : List Char} (behind : ∃ blanks rest, t = blanks ++ rest ∧ Blank blanks ∧ Begins rest) :
    significant (tokensOf (s ++ t)) = ⟨.text, String.ofList s⟩ :: significant (tokensOf t) := by
  obtain ⟨blanks, rest, rfl, blank, begins⟩ := behind
  rw [← List.append_assoc, significant_plain (plain_append_blank plain blank) begins,
    Text.trim_append_blank blank, trimmed, if_neg filled, significant_blank_append blank]

/-- A token that is cut off again from what is written behind it. Behind the last
    one that may have to be nothing. -/
inductive Token.Cuts (last : Prop) : Token → Prop
  | text {s : List Char} (plain : Plain s) (filled : s ≠ []) (trimmed : Text.trim s = s) :
    Cuts last ⟨.text, String.ofList s⟩
  | markup {token : Token} (kind : token.kind ≠ .text) (filled : token.raw ≠ "")
      (begins : Begins token.raw.toList)
      (cut : ∀ t, (last → t = []) → tokensOf (token.raw.toList ++ t) = token :: tokensOf t) : Cuts last token

theorem Token.Cuts.imp {last final : Prop} {token : Token} (cuts : token.Cuts last) (ends : last → final) :
    token.Cuts final := by
  cases cuts with
  | text plain filled trimmed => exact .text plain filled trimmed
  | markup kind filled begins cut => exact .markup kind filled begins fun t none => cut t (none ∘ ends)

/-- Every token is cut off again, and no texts meet. -/
def Cut : List Token → Prop
  | [] => True
  | token :: rest =>
    token.Cuts (rest = []) ∧ (token.kind = .text → ∀ next ∈ rest.head?, next.kind ≠ .text) ∧ Cut rest

/-- No text begins where markup or a template does. -/
theorem kind_rule_of_begins {s : List Char} (filled : s ≠ []) (begins : Begins s) : (rule s).kind ≠ .text := by
  rcases rule_cases s with ⟨-, other, literal⟩ | ⟨template, -⟩ | ⟨text, -⟩
  · simp [Begins, filled, other, literal] at begins
  · rw [template]
    decide
  · exact text

/-- What ends markup and templates is sealed. -/
theorem seals_of_kind_rule {s : List Char} (markup : (rule s).kind ≠ .text) : (rule s).ending.seals = true := by
  rcases rule_cases s with ⟨text, -⟩ | ⟨template, -⟩ | ⟨-, -, -, seals⟩
  · exact absurd (by rw [text]) markup
  · rw [template]
    rfl
  · exact seals

/-- Where no text stands at the head of a source, its first token is cut off again. -/
theorem exists_markup {s : List Char} (filled : s ≠ []) (begins : Begins s) :
    ∃ token rest, token.raw.toList ++ rest = s ∧ token.Cuts (rest = []) ∧ token.kind ≠ .text ∧
      tokensOf s = token :: tokensOf rest := by
  have markup := kind_rule_of_begins filled begins
  obtain ⟨raw, rest, first⟩ : ∃ raw rest, splitFirst s = (raw, rest) := ⟨_, _, rfl⟩
  have whole : raw ++ rest = s := by simpa [first] using splitFirst_append s
  have filledRaw : raw ≠ [] := by simpa [first] using splitFirst_ne_nil filled
  have kind : kindOf (rule s).kind raw ≠ .text := by rwa [Ne, (kindOf_eq_iff _ _).1]
  have starts : Begins raw := by
    have head : raw.head? = s.head? := by simpa [first] using head_splitFirst filled
    refine .inr (begins.resolve_left filled |>.imp (fun markup => head.trans markup) fun opening => ?_)
    simpa [first] using opens_splitFirst opening
  refine ⟨⟨kindOf (rule s).kind raw, String.ofList raw⟩, rest, by simpa using whole, ?_, kind,
    tokensOf_of_splitFirst filled first⟩
  refine .markup kind (by simpa using filledRaw) (by simpa using starts) fun t last => ?_
  rw [String.toList_ofList]
  by_cases ended : rest = []
  · rw [last ended, ← ended, whole]
    exact tokensOf_of_splitFirst filled first
  · obtain ⟨same, again⟩ := splitFirst_of_closed (seals_of_kind_rule markup) first ended t
    rw [tokensOf_of_splitFirst (by simp [filledRaw]) again, same]

/-- The tokens that are laid out are cut off again. -/
theorem cut_significant (s : List Char) : Cut (significant (tokensOf s)) := by
  obtain ⟨text, rest, whole, plain, begins⟩ := exists_plain s
  have later : Cut (significant (tokensOf rest)) ∧
      ∀ next ∈ (significant (tokensOf rest)).head?, next.kind ≠ .text := by
    by_cases ended : rest = []
    · simp [ended, tokensOf, significant, Cut]
    · obtain ⟨token, behind, joined, cuts, markup, eq⟩ := exists_markup ended begins
      have filled : token.raw ≠ "" := by
        cases cuts with
        | text => exact absurd rfl markup
        | markup kind filled => exact filled
      have shorter : behind.length < s.length := by
        have := List.length_pos_iff.2 (fun none => filled (String.toList_eq_nil_iff.1 none))
        rw [whole, ← joined, List.length_append, List.length_append]
        omega
      have ends : behind = [] → significant (tokensOf behind) = [] := by
        rintro rfl
        simp [tokensOf, significant]
      rw [eq, significant_of_markup markup filled]
      exact ⟨⟨cuts.imp ends, fun text => absurd text markup, cut_significant behind⟩, by simpa using markup⟩
  rw [whole, significant_plain plain begins]
  split
  · exact later.1
  · rename_i kept
    exact ⟨.text (plain_trim plain) kept (Text.trim_trim text), fun _ => later.2, later.1⟩
termination_by s.length
decreasing_by exact shorter

/-- Tokens that are written one after the other, each behind its blanks. -/
def interleaved (ts : List Token) (leads : List (List Char)) : List Char :=
  (List.zipWith (fun token lead => lead ++ token.raw.toList) ts leads).flatten

/-- Blanks before the tokens. -/
abbrev Spaced (ts : List Token) (leads : List (List Char)) : Prop :=
  List.Forall₂ (fun _ lead => Blank lead) ts leads

theorem exists_of_interleaved {ts : List Token} (cut : Cut ts) (first : ∀ next ∈ ts.head?, next.kind ≠ .text)
    {leads : List (List Char)} (spaced : Spaced ts leads) :
    ∃ blanks rest, interleaved ts leads = blanks ++ rest ∧ Blank blanks ∧ Begins rest := by
  cases spaced with
  | nil => exact ⟨[], [], rfl, by simp [Blank], .inl rfl⟩
  | @cons token lead ts leads here later =>
    refine ⟨lead, token.raw.toList ++ interleaved ts leads, by simp [interleaved], here, ?_⟩
    cases cut.1 with
    | text => exact absurd rfl (first _ rfl)
    | markup kind filled begins =>
      rcases begins with empty | head | opening
      · simp [filled] at empty
      · exact .inr (.inl (by rw [List.head?_append_of_ne_nil _ (by simpa using filled), head]))
      · exact .inr (.inr (opens_append_of_opens opening _))

/-- However tokens are set apart by blanks, they are cut where they were cut before. -/
theorem significant_interleaved {ts : List Token} (cut : Cut ts) {leads : List (List Char)}
    (spaced : Spaced ts leads) : significant (tokensOf (interleaved ts leads)) = ts := by
  induction spaced with
  | nil => simp [interleaved, tokensOf, significant]
  | @cons token lead ts leads here later ih =>
    obtain ⟨cuts, apart, cut⟩ := cut
    have split : interleaved (token :: ts) (lead :: leads) =
        lead ++ (token.raw.toList ++ interleaved ts leads) := by
      simp [interleaved]
    rw [split, significant_blank_append here]
    cases cuts with
    | text plain filled trimmed =>
      rw [String.toList_ofList, significant_plain_append plain filled trimmed
        (exists_of_interleaved cut (apart rfl) later), ih cut]
    | markup kind filled begins again =>
      rw [again _ fun last => by simp [last, interleaved], significant_of_markup kind filled, ih cut]

end Markup
end RequestTemplate
