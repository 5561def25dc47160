import RequestTemplate.Proofs.Pieces
import RequestTemplate.Proofs.Stable

/-!
# Texts fall into tokens

The tokens of a text are the text, cut where its markup and its templates begin and
end. Every kind of token has its own end: `Ended` says what a token with its end looks
like and `Endless` what is left of one without it. Only the last token may be endless
(`partition_tokens`).
-/

namespace RequestTemplate.Markup
open Delimiter

/-! ## What tokens look like -/

/-- What a token of the kind begins with. -/
def Kind.opener : Kind → List Char
  | .opening | .selfClosing => ['<']
  | .closing => ['<', '/']
  | .comment => ['<', '!', '-', '-']
  | .cdata => ['<', '!', '[', 'C', 'D', 'A', 'T', 'A', '[']
  | .instruction => ['<', '?']
  | .declaration => ['<', '!']
  | .template => ['$', '{', '[']
  | .text => []

/-- What a token of the kind ends with. -/
def Kind.closer : Kind → List Char
  | .opening | .selfClosing | .closing | .declaration => ['>']
  | .comment => ['-', '-', '>']
  | .cdata => [']', ']', '>']
  | .instruction => ['?', '>']
  | .template => [']', '}']
  | .text => []

/-- The kinds in which a value in quotes may hold the closer. -/
def Kind.isTag : Kind → Bool
  | .opening | .selfClosing | .closing => true
  | _ => false

/-- What stands in a tag without its bracket: no bracket stands outside quoted values.
    With `cut` its last value never ends. -/
inductive InTag : (cut : Bool) → List Char → Prop
  | empty : InTag false []
  | plain {cut : Bool} {c : Char} {s : List Char} (ordinary : c ≠ '>' ∧ c ≠ '"' ∧ c ≠ '\'')
      (rest : InTag cut s) : InTag cut (c :: s)
  | quoted {cut : Bool} {quote : Char} {value s : List Char} (quotes : quote = '"' ∨ quote = '\'')
      (inner : quote ∉ value) (rest : InTag cut s) : InTag cut (quote :: (value ++ quote :: s))
  | cut {quote : Char} {value : List Char} (quotes : quote = '"' ∨ quote = '\'') (inner : quote ∉ value) :
      InTag true (quote :: value)

/-- The first place where a marker stands behind `inner` is at its end. -/
def First (marker inner : List Char) : Prop :=
  ∀ earlier later, inner ++ marker = earlier ++ marker ++ later → later = []

/-- A token that stops at the first closer of its kind; in a tag, at the first one
    outside quoted values. -/
inductive Ended : Kind → List Char → Prop
  | marker {kind : Kind} {inner : List Char} (markup : kind.isTag = false) (first : First kind.closer inner) :
      Ended kind (kind.opener ++ (inner ++ kind.closer))
  | tag {kind : Kind} {inner : List Char} (tag : kind.isTag = true) (inside : InTag false inner) :
      Ended kind (kind.opener ++ (inner ++ kind.closer))

/-- A token that its closer is missing from. -/
inductive Endless : Kind → List Char → Prop
  | marker {kind : Kind} {inner : List Char} (markup : kind.isTag = false) (missing : ¬kind.closer <:+: inner) :
      Endless kind (kind.opener ++ inner)
  | tag {kind : Kind} {cut : Bool} {inner : List Char} (tag : kind.isTag = true) (inside : InTag cut inner) :
      Endless kind (kind.opener ++ inner)

/-- The tokens are the source, in pieces. -/
structure Partition (source : String) (ts : List Token) : Prop where
  whole : String.join (ts.map Token.raw) = source
  filled : ∀ token ∈ ts, token.raw ≠ ""
  /-- Every token takes a character of the source, so there are no more tokens than that. -/
  bounded : ts.length ≤ source.length
  apart : ts.IsChain fun token next => token.kind = .text → next.kind ≠ .text
  plain : ∀ token ∈ ts, token.kind = .text → '<' ∉ token.raw.toList ∧ ¬Span.opener <:+: token.raw.toList
  ended : ∀ token ∈ ts.dropLast, token.kind ≠ .text → Ended token.kind token.raw.toList
  /-- The last token runs to the end of the source only where its closer is missing. -/
  last : ∀ token ∈ ts.getLast?, token.kind ≠ .text →
    Ended token.kind token.raw.toList ∨ Endless token.kind token.raw.toList

/-! ## Where the ends are found -/

/-- A marker is found at its first place, or it is missing from all that is read. -/
theorem throughMarker_cases {m : List Char} (filled : m ≠ []) (s : List Char) :
    (∃ inner, (throughMarker m s).1 = inner ++ m ∧ First m inner) ∨
      ((throughMarker m s) = (s, []) ∧ ¬m <:+: s) := by
  induction s with
  | nil => exact .inr ⟨rfl, by simpa using filled⟩
  | cons c s ih =>
    rw [throughMarker]
    split
    · refine .inl ⟨[], rfl, fun earlier later split => ?_⟩
      have lengths := congrArg List.length split
      simp only [List.length_append, List.length_nil] at lengths
      exact List.length_eq_zero_iff.1 (by omega)
    · rename_i goes
      rw [List.isPrefixOf_iff_prefix] at goes
      rcases ih with ⟨inner, found, first⟩ | ⟨found, missing⟩
      · refine .inl ⟨c :: inner, by simp [found], fun earlier later split => ?_⟩
        cases earlier with
        | nil =>
          -- the marker would stand at the head of the text
          have whole := throughMarker_append m s
          rw [found] at whole
          refine absurd ?_ goes
          rw [← whole, ← List.cons_append, ← List.cons_append, split, List.nil_append, List.append_assoc]
          exact List.prefix_append _ _
        | cons d earlier =>
          simp only [List.cons_append, List.cons.injEq] at split
          exact first earlier later split.2
      · refine .inr ⟨by simp [found], fun within => ?_⟩
        exact (List.infix_cons_iff.1 within).elim goes missing

/-- What stands behind an opened value, or behind no open one. -/
def InValue (cut : Bool) : Option Char → List Char → Prop
  | none, s => InTag cut s
  | some q, s => (∃ value rest, s = value ++ q :: rest ∧ q ∉ value ∧ InTag cut rest) ∨ (cut = true ∧ q ∉ s)

theorem inValue_cons_quoted {cut : Bool} {q c : Char} {s : List Char}
    (behind : InValue cut (if c = q then none else some q) s) : InValue cut (some q) (c :: s) := by
  split at behind
  · rename_i same
    exact .inl ⟨[], s, by simp [same], by simp, behind⟩
  · rename_i other
    rcases behind with ⟨value, rest, rfl, inner, inside⟩ | ⟨cut, missing⟩
    · exact .inl ⟨c :: value, rest, rfl, by simp [inner, Ne.symm other], inside⟩
    · exact .inr ⟨cut, by simp [missing, Ne.symm other]⟩

theorem inValue_cons_plain {cut : Bool} {c : Char} {s : List Char} (other : c ≠ '>')
    (behind : InValue cut (if c = '"' ∨ c = '\'' then some c else none) s) : InValue cut none (c :: s) := by
  split at behind
  · rename_i quotes
    rcases behind with ⟨value, rest, rfl, inner, inside⟩ | ⟨rfl, missing⟩
    · exact .quoted quotes inner inside
    · exact .cut quotes missing
  · rename_i ordinary
    exact .plain ⟨other, not_or.1 ordinary⟩ behind

/-- A bracket is found outside quoted values, or none stands outside them in all that
    is read. -/
theorem throughBracket_cases (quote : Option Char) (s : List Char) :
    (∃ inner, (throughBracket quote s).1 = inner ++ ['>'] ∧ InValue false quote inner) ∨
      ((throughBracket quote s) = (s, []) ∧ ∃ cut, InValue cut quote s) := by
  induction s generalizing quote with
  | nil =>
    cases quote with
    | none => exact .inr ⟨rfl, false, .empty⟩
    | some q => exact .inr ⟨rfl, true, .inr ⟨rfl, by simp⟩⟩
  | cons c s ih =>
    cases quote with
    | some q =>
      simp only [throughBracket]
      rcases ih (if c = q then none else some q) with ⟨inner, found, behind⟩ | ⟨found, cut, behind⟩
      · exact .inl ⟨c :: inner, by simp [found], inValue_cons_quoted behind⟩
      · exact .inr ⟨by simp [found], cut, inValue_cons_quoted behind⟩
    | none =>
      simp only [throughBracket]
      split
      · rename_i bracket
        exact .inl ⟨[], by simp [bracket], .empty⟩
      · rename_i other
        rcases ih (if c = '"' ∨ c = '\'' then some c else none) with ⟨inner, found, behind⟩ | ⟨found, cut, behind⟩
        · exact .inl ⟨c :: inner, by simp [found], inValue_cons_plain other behind⟩
        · exact .inr ⟨by simp [found], cut, inValue_cons_plain other behind⟩

/-! ## One token -/

/-- What a kind of token ends at. -/
def Kind.ending (kind : Kind) : Ending :=
  if kind.isTag then .bracket else .marker kind.closer

theorem rule_of_markup {s : List Char} (markup : (rule s).kind ≠ .text) :
    (rule s).kind.opener = s.take (rule s).width ∧ (rule s).ending = (rule s).kind.ending := by
  unfold rule at markup ⊢
  split <;> simp_all [Kind.opener, Kind.ending, Kind.isTag, Kind.closer]

theorem kindOf_cases (kind : Kind) (raw : List Char) :
    kindOf kind raw = kind ∨ (kind = .opening ∧ kindOf kind raw = .selfClosing) := by
  unfold kindOf
  split
  · exact .inr ⟨rfl, rfl⟩
  · exact .inl rfl

/-- A self-closing tag begins and ends as an opening one does. -/
theorem kindOf_shape (kind : Kind) (raw : List Char) :
    (kindOf kind raw).opener = kind.opener ∧ (kindOf kind raw).closer = kind.closer ∧
      (kindOf kind raw).isTag = kind.isTag := by
  rcases kindOf_cases kind raw with same | ⟨rfl, same⟩
  · rw [same]
    exact ⟨rfl, rfl, rfl⟩
  · rw [same]
    exact ⟨rfl, rfl, rfl⟩

theorem closer_ne_nil {kind : Kind} (markup : kind ≠ .text) : kind.closer ≠ [] := by
  cases kind <;> simp_all [Kind.closer]

theorem split_ending {kind : Kind} (markup : kind ≠ .text) (s : List Char) :
    Ended kind (kind.opener ++ (kind.ending.split s).1) ∨
      ((kind.ending.split s).2 = [] ∧ Endless kind (kind.opener ++ (kind.ending.split s).1)) := by
  cases tag : kind.isTag with
  | false =>
    simp only [Kind.ending, tag, Bool.false_eq_true, if_false, Ending.split]
    rcases throughMarker_cases (closer_ne_nil markup) s with ⟨inner, found, first⟩ | ⟨found, missing⟩
    · rw [found]
      exact .inl (.marker tag first)
    · rw [found]
      exact .inr ⟨rfl, .marker tag missing⟩
  | true =>
    have bracket : kind.closer = ['>'] := by cases kind <;> simp_all [Kind.isTag, Kind.closer]
    simp only [Kind.ending, tag, if_true, Ending.split]
    rcases throughBracket_cases none s with ⟨inner, found, inside⟩ | ⟨found, cut, inside⟩
    · rw [found, ← bracket]
      exact .inl (.tag tag inside)
    · rw [found]
      exact .inr ⟨rfl, .tag tag inside⟩

/-- A token of markup or a template is ended, or nothing stands behind it. -/
theorem splitFirst_ended {s : List Char} (markup : (rule s).kind ≠ .text) :
    Ended (rule s).kind (splitFirst s).1 ∨
      ((splitFirst s).2 = [] ∧ Endless (rule s).kind (splitFirst s).1) := by
  obtain ⟨opener, ending⟩ := rule_of_markup markup
  have cases := split_ending markup (s.drop (rule s).width)
  rw [← ending, opener] at cases
  exact cases

theorem Ended.kindOf {kind : Kind} {raw : List Char} (ended : Ended kind raw) (other : List Char) :
    Ended (kindOf kind other) raw := by
  obtain ⟨opener, closer, tag⟩ := kindOf_shape kind other
  cases ended with
  | marker markup first =>
    rw [← opener, ← closer]
    exact .marker (tag.trans markup) (closer ▸ first)
  | tag isTag inside =>
    rw [← opener, ← closer]
    exact .tag (tag.trans isTag) inside

theorem Endless.kindOf {kind : Kind} {raw : List Char} (endless : Endless kind raw) (other : List Char) :
    Endless (kindOf kind other) raw := by
  obtain ⟨opener, closer, tag⟩ := kindOf_shape kind other
  cases endless with
  | marker markup missing =>
    rw [← opener]
    exact .marker (tag.trans markup) (closer ▸ missing)
  | tag isTag inside =>
    rw [← opener]
    exact .tag (tag.trans isTag) inside

/-! ## Text -/

/-- Text in which nothing else begins holds neither marker. -/
theorem plain_iff {s : List Char} : Plain s ↔ '<' ∉ s ∧ Bare s := by
  induction s with
  | nil => simp [Plain, toNextToken, Bare, Span.opener]
  | cons c s ih =>
    rw [plain_cons, ih, bare_cons_iff]
    simp only [not_or, List.mem_cons, Bool.not_eq_true, eq_comm (a := '<')]
    tauto

/-- Text runs to the next markup or template. -/
theorem splitFirst_text {s : List Char} (text : (rule s).kind = .text) :
    Plain (splitFirst s).1 ∧ Begins (splitFirst s).2 := by
  rcases rule_cases s with ⟨-, other, literal⟩ | ⟨template, -⟩ | ⟨markup, -⟩
  · cases s with
    | nil => exact ⟨rfl, .inl rfl⟩
    | cons c s =>
      have goes : ¬(c = '<' ∨ opens (c :: s) = true) := by simpa [literal] using other
      rw [(splitFirst_of_text goes).2]
      exact ⟨plain_toNextToken _, toNextToken_stops _⟩
  · rw [template] at text
    cases text
  · exact absurd text markup

/-! ## All tokens -/

theorem tokensOf_eq_nil_iff {s : List Char} : tokensOf s = [] ↔ s = [] := by
  constructor
  · intro none
    by_contra filled
    rw [tokensOf_of_splitFirst filled rfl] at none
    cases none
  · rintro rfl
    rw [tokensOf, dif_pos rfl]

theorem kind_head_tokensOf {s : List Char} (begins : Begins s) : ∀ next ∈ (tokensOf s).head?, next.kind ≠ .text := by
  intro next first
  by_cases filled : s = []
  · simp [tokensOf_eq_nil_iff.2 filled] at first
  · rw [tokensOf_of_splitFirst filled rfl] at first
    obtain rfl := Option.some.inj first
    rw [Ne, (kindOf_eq_iff _ _).1]
    exact kind_rule_of_begins filled begins

theorem apart_tokensOf (s : List Char) :
    (tokensOf s).IsChain fun token next => token.kind = .text → next.kind ≠ .text := by
  fun_induction tokensOf s with
  | case1 => exact .nil
  | case2 s filled raw rest split ih =>
    refine List.isChain_cons.2 ⟨fun next first text => ?_, ih⟩
    have begins := (splitFirst_text ((kindOf_eq_iff _ _).1.1 text)).2
    rw [split] at begins
    exact kind_head_tokensOf begins next first

theorem plain_tokensOf {s : List Char} {token : Token} (member : token ∈ tokensOf s) (text : token.kind = .text) :
    '<' ∉ token.raw.toList ∧ Bare token.raw.toList := by
  fun_induction tokensOf s with
  | case1 => simp at member
  | case2 s filled raw rest split ih =>
    rcases List.mem_cons.1 member with rfl | later
    · have plain := (splitFirst_text ((kindOf_eq_iff _ _).1.1 text)).1
      rw [split] at plain
      simpa using plain_iff.1 plain
    · exact ih later

/-- A token is ended, unless it is the last one. -/
theorem ended_tokensOf {s : List Char} {front back : List Token} {token : Token}
    (stands : tokensOf s = front ++ token :: back) (markup : token.kind ≠ .text) :
    Ended token.kind token.raw.toList ∨ (back = [] ∧ Endless token.kind token.raw.toList) := by
  fun_induction tokensOf s generalizing front with
  | case1 => simp at stands
  | case2 s filled raw rest split ih =>
    cases front with
    | nil =>
      obtain ⟨rfl, rfl⟩ := List.cons.inj stands
      have markup : (rule s).kind ≠ .text := (kindOf_eq_iff _ _).1.not.1 markup
      have cases := splitFirst_ended markup
      rw [split] at cases
      rw [String.toList_ofList, tokensOf_eq_nil_iff]
      exact cases.imp (fun ended => ended.kindOf raw) fun endless => ⟨endless.1, endless.2.kindOf raw⟩
    | cons first front =>
      obtain ⟨rfl, later⟩ := List.cons.inj stands
      exact ih later

theorem join_raw_tokens (source : String) : String.join ((tokens source).map Token.raw) = source := by
  apply String.toList_injective
  rw [String.toList_join, List.flatMap_map, raw_tokens]

theorem length_tokens_le (source : String) : (tokens source).length ≤ source.length := by
  have whole := congrArg List.length (raw_tokens source)
  rw [List.length_flatMap, String.length_toList] at whole
  rw [← whole]
  have filled : ∀ n ∈ (tokens source).map fun token => token.raw.toList.length, 1 ≤ n := by
    intro n member
    obtain ⟨token, here, rfl⟩ := List.mem_map.1 member
    exact List.length_pos_iff.2 (by simpa using filled_of_mem_tokensOf here)
  simpa using List.card_nsmul_le_sum _ 1 filled

/-- Every source falls into its tokens, and no more than the last of them is without
    its end. -/
theorem partition_tokens (source : String) : Partition source (tokens source) where
  whole := join_raw_tokens source
  filled _ := filled_of_mem_tokensOf
  bounded := length_tokens_le source
  apart := apart_tokensOf source.toList
  plain _ := plain_tokensOf
  ended token member markup := by
    obtain ⟨front, back, split⟩ := List.append_of_mem member
    have filled : tokens source ≠ [] := List.ne_nil_of_mem (List.dropLast_subset _ member)
    have stands := List.dropLast_append_getLast filled
    rw [split, List.append_assoc, List.cons_append] at stands
    rcases ended_tokensOf stands.symm markup with ended | ⟨none, -⟩
    · exact ended
    · simp at none
  last token last markup := by
    obtain ⟨front, stands⟩ := List.getLast?_eq_some_iff.1 last
    exact (ended_tokensOf stands markup).imp_right And.right

/-- A bracket in a value, a comment that its opener does not close, a closer behind a
    closer, and a tag that a quote takes the bracket from. -/
example : tokens "a$\x7b[ ']\x7d'<b c='>'/><!-->--> <![CDATA[<d>]]]></b e=\"> f" =
    [⟨.text, "a"⟩, ⟨.template, "$\x7b[ ']\x7d"⟩, ⟨.text, "'"⟩, ⟨.selfClosing, "<b c='>'/>"⟩,
      ⟨.comment, "<!-->-->"⟩, ⟨.text, " "⟩, ⟨.cdata, "<![CDATA[<d>]]]>"⟩, ⟨.closing, "</b e=\"> f"⟩] := by cbv

end RequestTemplate.Markup
