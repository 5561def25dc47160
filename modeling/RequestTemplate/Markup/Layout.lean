import RequestTemplate.Markup.Token

/-!
# Markup layout

Writes text on lines that are indented by the number of elements that are open
around them. Blank text between tokens is dropped and other text trimmed; nothing
else changes (`tokens_arrange`). An element that holds one line of text stands on
one line, and every other token on a line of its own.
-/

namespace RequestTemplate.Markup

/-! ## Tokens without the blanks around text -/

def Token.trim (token : Token) : Token :=
  match token.kind with
  | .text => { token with raw := String.ofList (Text.trim token.raw.toList) }
  | _ => token

/-- The tokens that are laid out: text is trimmed, and dropped where nothing is
    left of it. -/
def significant (ts : List Token) : List Token :=
  (ts.map Token.trim).filter fun t => t.raw != ""

/-! ## Tokens on lines -/

structure Line where
  depth : Nat
  tokens : List Token
  deriving DecidableEq, Inhabited

/-- Whether the first three tokens are an element that holds a single line of
    text. -/
def fitsLine : List Token → Bool
  | opening :: content :: closing :: _ =>
    opening.kind == .opening && content.kind == .text && closing.kind == .closing &&
      !content.raw.toList.contains '\n' && opening.name == closing.name
  | _ => false

/-- The tokens that share a line, line after line. -/
def grouped (ts : List Token) : List (List Token) :=
  match ts with
  | [] => []
  | t :: rest =>
    if fitsLine (t :: rest) then (t :: rest.take 2) :: grouped (rest.drop 2)
    else [t] :: grouped rest
termination_by ts.length
decreasing_by all_goals simp only [List.length_drop, List.length_cons]; omega

/-- How many elements are open behind a token. A closing tag without an opening
    one closes nothing. -/
def depthBehind (depth : Nat) (token : Token) : Nat :=
  match token.kind with
  | .opening => depth + 1
  | .closing => depth - 1
  | _ => depth

/-- The lines of the groups, inside `depth` open elements. A line stands at the
    smaller of the depths before and behind its tokens: with an opening tag the
    lines after it go in, with a closing tag the line itself comes out. -/
def arrange (depth : Nat) : List (List Token) → List Line
  | [] => []
  | group :: groups =>
    let behind := group.foldl depthBehind depth
    ⟨min depth behind, group⟩ :: arrange behind groups

theorem flatten_grouped (ts : List Token) : (grouped ts).flatten = ts := by
  fun_induction grouped ts with
  | case1 => rfl
  | case2 t rest _ ih => simp [ih]
  | case3 t rest _ ih => simp [ih]

theorem tokens_arrange (depth : Nat) (groups : List (List Token)) :
    (arrange depth groups).map Line.tokens = groups := by
  induction groups generalizing depth with
  | nil => rfl
  | cons group groups ih => simp [arrange, ih]

/-! ## Text of the lines -/

def Line.text (unit : String) (line : Line) : String :=
  String.join (List.replicate line.depth unit) ++ String.join (line.tokens.map Token.raw)

/-- The lines of a text. -/
def layout (source : String) : List Line :=
  arrange 0 (grouped (significant (tokens source)))

/-- The text laid out with `unit` for each level. -/
def format (source : String) (unit : String) : String :=
  String.intercalate "\n" ((layout source).map (Line.text unit))

end RequestTemplate.Markup
