import RequestTemplate.Text.Printable

/-!
# Quoted text in messages

Messages show a character or a text between single quotes, or between double
quotes where it holds a single quote and no double one. Backslashes, the quote
in use and characters that cannot be printed are written as escapes.
-/

namespace RequestTemplate.Text

def hexDigit (n : Nat) : Char :=
  if n < 10 then Char.ofNat (48 + n) else Char.ofNat (87 + n)

/-- The last `width` digits of `n` in base sixteen, in lower case. -/
def hex : (width : Nat) → (n : Nat) → List Char
  | 0, _ => []
  | width + 1, n => hex width (n / 16) ++ [hexDigit (n % 16)]

/-- A character by its code point: two, four or eight digits. -/
def codePointEscape (c : Char) : List Char :=
  let n := c.toNat
  if n < 0x100 then '\\' :: 'x' :: hex 2 n
  else if n < 0x10000 then '\\' :: 'u' :: hex 4 n
  else '\\' :: 'U' :: hex 8 n

/-- A character between quotes `q`. -/
def quotedChar (q c : Char) : List Char :=
  if c = q ∨ c = '\\' then ['\\', c]
  else if c = '\n' then ['\\', 'n']
  else if c = '\r' then ['\\', 'r']
  else if c = '\t' then ['\\', 't']
  else if isPrintable c then [c]
  else codePointEscape c

/-- The text as messages show it. -/
def quoted (text : String) : String :=
  let s := text.toList
  let q := if s.contains '\'' && !s.contains '"' then '"' else '\''
  String.ofList (q :: s.flatMap (quotedChar q) ++ [q])

end RequestTemplate.Text
