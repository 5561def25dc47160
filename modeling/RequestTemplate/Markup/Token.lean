import RequestTemplate.Delimiter
import RequestTemplate.Text.Blank

/-!
# Markup tokens

Splits text with XML markup and template tags in it into tokens. Nothing is
refused: a token whose end is missing runs to the end of the text. A `Rule` says
what the token at the head of the text is and what ends it. `raw_tokens` says
that the tokens together are the text.
-/

namespace RequestTemplate.Markup
open Text (isBlank)
open Delimiter (opens)

inductive Kind where
  | opening
  | closing
  | selfClosing
  | comment
  | cdata
  | instruction
  | declaration
  | text
  | template
  deriving DecidableEq, Inhabited

structure Token where
  kind : Kind
  /-- The characters of the token as they stand in the text. -/
  raw : String
  deriving DecidableEq, Inhabited

/-! ## What stands at the head -/

/-- What ends a token: a marker that belongs to it, the bracket of a tag outside
    quoted values, or the beginning of the next token. -/
inductive Ending where
  | marker (marker : List Char)
  | bracket
  | nextToken
  deriving DecidableEq, Inhabited

structure Rule where
  kind : Kind
  /-- How many characters open the token; its end is looked for behind them. -/
  width : Nat
  ending : Ending
  deriving DecidableEq, Inhabited

/-- What the token at the head of a text that is not empty is. -/
def rule : List Char → Rule
  | '$' :: '{' :: '[' :: _ => ⟨.template, 3, .marker [']', '}']⟩
  | '<' :: '!' :: '-' :: '-' :: _ => ⟨.comment, 4, .marker ['-', '-', '>']⟩
  | '<' :: '!' :: '[' :: 'C' :: 'D' :: 'A' :: 'T' :: 'A' :: '[' :: _ =>
    ⟨.cdata, 9, .marker [']', ']', '>']⟩
  | '<' :: '?' :: _ => ⟨.instruction, 2, .marker ['?', '>']⟩
  | '<' :: '!' :: _ => ⟨.declaration, 2, .marker ['>']⟩
  | '<' :: '/' :: _ => ⟨.closing, 2, .bracket⟩
  | '<' :: _ => ⟨.opening, 1, .bracket⟩
  | _ => ⟨.text, 1, .nextToken⟩

/-! ## Where it ends -/

/-- The text up to a marker with the marker, and the text behind it. -/
def throughMarker (marker : List Char) : List Char → List Char × List Char
  | [] => ([], [])
  | c :: rest =>
    if marker.isPrefixOf (c :: rest) then (marker, (c :: rest).drop marker.length)
    else
      let (before, after) := throughMarker marker rest
      (c :: before, after)

/-- The rest of a tag up to its bracket, inside a quoted value or outside, and
    the text behind it. -/
def throughBracket (quote : Option Char) : List Char → List Char × List Char
  | [] => ([], [])
  | c :: rest =>
    match quote with
    | some q =>
      let (before, after) := throughBracket (if c = q then none else some q) rest
      (c :: before, after)
    | none =>
      if c = '>' then ([c], rest)
      else
        let (before, after) :=
          throughBracket (if c = '"' ∨ c = '\'' then some c else none) rest
        (c :: before, after)

/-- The text before the next markup or template, and the text from there on. -/
def toNextToken : List Char → List Char × List Char
  | [] => ([], [])
  | c :: rest =>
    if c = '<' ∨ opens (c :: rest) = true then ([], c :: rest)
    else
      let (before, after) := toNextToken rest
      (c :: before, after)

def Ending.split : Ending → List Char → List Char × List Char
  | marker m, s => throughMarker m s
  | bracket, s => throughBracket none s
  | nextToken, s => toNextToken s

/-- The characters of the first token, and the text behind it. -/
def splitFirst (s : List Char) : List Char × List Char :=
  let r := rule s
  let (body, rest) := r.ending.split (s.drop r.width)
  (s.take r.width ++ body, rest)

theorem throughMarker_append (m s : List Char) :
    (throughMarker m s).1 ++ (throughMarker m s).2 = s := by
  induction s with
  | nil => simp [throughMarker]
  | cons c s ih =>
    simp only [throughMarker]
    split
    · rename_i found
      obtain ⟨rest, eq⟩ := List.isPrefixOf_iff_prefix.1 found
      simp [← eq]
    · simpa using ih

theorem throughBracket_append (quote : Option Char) (s : List Char) :
    (throughBracket quote s).1 ++ (throughBracket quote s).2 = s := by
  induction s generalizing quote with
  | nil => simp [throughBracket]
  | cons c s ih =>
    simp only [throughBracket]
    split
    · simpa using ih _
    · split
      · simp
      · simpa using ih _

theorem toNextToken_append (s : List Char) :
    (toNextToken s).1 ++ (toNextToken s).2 = s := by
  induction s with
  | nil => simp [toNextToken]
  | cons c s ih =>
    simp only [toNextToken]
    split
    · simp
    · simpa using ih

theorem Ending.split_append (ending : Ending) (s : List Char) :
    (ending.split s).1 ++ (ending.split s).2 = s := by
  cases ending with
  | marker m => exact throughMarker_append m s
  | bracket => exact throughBracket_append none s
  | nextToken => exact toNextToken_append s

theorem splitFirst_append (s : List Char) : (splitFirst s).1 ++ (splitFirst s).2 = s := by
  simp [splitFirst, Ending.split_append]

theorem width_rule_pos (s : List Char) : 0 < (rule s).width := by
  unfold rule
  split <;> simp

theorem splitFirst_ne_nil {s : List Char} (h : s ≠ []) : (splitFirst s).1 ≠ [] := by
  have := width_rule_pos s
  cases s with
  | nil => exact absurd rfl h
  | cons c s =>
    simp only [splitFirst, ne_eq, List.append_eq_nil_iff, List.take_eq_nil_iff, reduceCtorEq,
      or_false]
    omega

theorem length_splitFirst_lt {s : List Char} (h : s ≠ []) :
    (splitFirst s).2.length < s.length := by
  have joined := congrArg List.length (splitFirst_append s)
  have := List.length_pos_iff.2 (splitFirst_ne_nil h)
  rw [List.length_append] at joined
  omega

/-! ## Tokens -/

/-- A tag is self-closing by the slash before its last character. -/
def kindOf (kind : Kind) (raw : List Char) : Kind :=
  match kind, raw.reverse with
  | .opening, _ :: '/' :: _ => .selfClosing
  | kind, _ => kind

def tokensOf (s : List Char) : List Token :=
  if _ : s = [] then []
  else
    match _ : splitFirst s with
    | (raw, rest) => ⟨kindOf (rule s).kind raw, String.ofList raw⟩ :: tokensOf rest
termination_by s.length
decreasing_by
  rename_i filled split
  have := length_splitFirst_lt filled
  rwa [split] at this

def tokens (source : String) : List Token :=
  tokensOf source.toList

/-- A name stops at a blank, at the bracket or at a slash. -/
def endsName (c : Char) : Bool := isBlank c || c == '>' || c == '/'

/-- The name of the element that a tag opens or closes. -/
def Token.name (token : Token) : String :=
  let nameAfter (width : Nat) : String :=
    String.ofList ((token.raw.toList.drop width).takeWhile fun c => !endsName c)
  match token.kind with
  | .opening => nameAfter 1
  | .closing => nameAfter 2
  | _ => ""

theorem raw_tokensOf (s : List Char) : (tokensOf s).flatMap (fun t => t.raw.toList) = s := by
  fun_induction tokensOf s with
  | case1 => rfl
  | case2 s h raw rest split ih =>
    have := splitFirst_append s
    rw [split] at this
    simpa [ih] using this

theorem raw_tokens (source : String) :
    (tokens source).flatMap (fun t => t.raw.toList) = source.toList :=
  raw_tokensOf source.toList

end RequestTemplate.Markup
