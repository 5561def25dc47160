import RequestTemplate.Document.Basic
import RequestTemplate.Text.Integer

/-!
# Reading documents

Documents as they are written in files: the JSON format. Members keep their
order; a member written twice keeps its first place and its last value. Whole
numbers of any size are integers, all others decimals. What a number is written
like is left to a `Numeral`, of which `Numeral.json` is the one of the format.
-/

namespace RequestTemplate.Document.Reader
open Text (digitsValue)

/-! ## Text -/

def hexDigit? (c : Char) : Option Nat :=
  if '0' ≤ c ∧ c ≤ '9' then some (c.toNat - 48)
  else if 'a' ≤ c ∧ c ≤ 'f' then some (c.toNat - 87)
  else if 'A' ≤ c ∧ c ≤ 'F' then some (c.toNat - 55)
  else none

/-- The 16-bit unit that four digits name. -/
def unit? (a b c d : Char) : Option Nat := do
  let a ← hexDigit? a
  let b ← hexDigit? b
  let c ← hexDigit? c
  let d ← hexDigit? d
  some (((a * 16 + b) * 16 + c) * 16 + d)

def escaped? (c : Char) : Option Char :=
  match c with
  | '"' => some '"'
  | '\\' => some '\\'
  | '/' => some '/'
  | 'b' => some '\x08'
  | 'f' => some '\x0c'
  | 'n' => some '\n'
  | 'r' => some '\r'
  | 't' => some '\t'
  | _ => none

/-- The second half of a surrogate pair, if it is escaped at the head of the text. -/
def lowSurrogate? : List Char → Option Nat
  | '\\' :: 'u' :: a :: b :: c :: d :: _ => do
    let low ← unit? a b c d
    if 0xDC00 ≤ low ∧ low < 0xE000 then some (low - 0xDC00) else none
  | _ => none

/-- Text behind its opening quote. Two escaped surrogates are one character. -/
def textBody : List Char → Option (List Char × List Char)
  | [] => none
  | '"' :: rest => some ([], rest)
  | '\\' :: 'u' :: a :: b :: c :: d :: rest => do
    let unit ← unit? a b c d
    match if 0xD800 ≤ unit ∧ unit < 0xDC00 then lowSurrogate? rest else none with
    | some low => do
      let (text, after) ← textBody (rest.drop 6)
      some (Char.ofNat (0x10000 + (unit - 0xD800) * 0x400 + low) :: text, after)
    | none => do
      let (text, after) ← textBody rest
      some (Char.ofNat unit :: text, after)
  | '\\' :: c :: rest => do
    let c ← escaped? c
    let (text, after) ← textBody rest
    some (c :: text, after)
  | c :: rest => do
    let (text, after) ← textBody rest
    some (c :: text, after)
termination_by s => s.length

/-! ## Numbers -/

/-- The digits at the head of the text, and what follows them. -/
def digits (s : List Char) : List Char × List Char :=
  (s.takeWhile Char.isDigit, s.dropWhile Char.isDigit)

/-- The digits behind a point, if there is one, and what follows them. -/
def fraction? : List Char → Option (List Char × List Char)
  | '.' :: rest => some (digits rest)
  | _ => none

/-- A number with or without a sign, and what follows it. -/
def signed : List Char → Int × List Char
  | '-' :: rest => (-(digitsValue (digits rest).1 : Int), (digits rest).2)
  | '+' :: rest => (digitsValue (digits rest).1, (digits rest).2)
  | rest => (digitsValue (digits rest).1, (digits rest).2)

/-- The exponent of a number, if it has one, and what follows it. -/
def exponent? : List Char → Option (Int × List Char)
  | e :: rest => if e = 'e' ∨ e = 'E' then some (signed rest) else none
  | [] => none

/-- The number whose sign has been read. -/
def number? (negative : Bool) (s : List Char) : Option (Scalar × List Char) :=
  let (whole, rest) := digits s
  if whole = [] then none
  else
    let (places, tail) := (fraction? rest).getD ([], rest)
    match fraction? rest, exponent? tail with
    | none, none =>
      some (.integer (if negative then -(digitsValue whole : Int) else digitsValue whole), rest)
    | _, power =>
      let (power, after) := power.getD (0, tail)
      some (.decimal (Decimal.of negative (digitsValue (whole ++ places)) (power - places.length)),
        after)

theorem exists_of_number? {negative : Bool} {s : List Char} {r : Scalar × List Char}
    (read : number? negative s = some r) : ∃ c rest, s = c :: rest ∧ c.isDigit = true := by
  cases s with
  | nil => cases read
  | cons c rest =>
    cases digit : c.isDigit with
    | false => simp [number?, digits, digit] at read
    | true => exact ⟨c, rest, rfl, digit⟩

/-- How numbers are written. -/
structure Numeral where
  /-- The number at the head of the text, whose sign has been read, and what follows it. -/
  read? (negative : Bool) (s : List Char) : Option (Scalar × List Char)
  /-- A number begins with a digit. -/
  digital {negative : Bool} {s : List Char} {r : Scalar × List Char} (read : read? negative s = some r) :
    ∃ c rest, s = c :: rest ∧ c.isDigit = true

/-- Numbers of JSON. -/
def Numeral.json : Numeral :=
  ⟨number?, exists_of_number?⟩

/-! ## Whole documents -/

def isSpace (c : Char) : Bool := c == ' ' || c == '\n' || c == '\r' || c == '\t'

def skip (s : List Char) : List Char := s.dropWhile isSpace

mutual

/-- A document at the head of the text, at most `levels` deep and with at most
    `room` parts side by side. -/
def document? (numeral : Numeral) (room levels : Nat) (s : List Char) : Option (Document × List Char) :=
  match levels with
  | 0 => none
  | levels + 1 =>
    match s with
    | 'n' :: 'u' :: 'l' :: 'l' :: rest => some (null, rest)
    | 't' :: 'r' :: 'u' :: 'e' :: rest => some (bool true, rest)
    | 'f' :: 'a' :: 'l' :: 's' :: 'e' :: rest => some (bool false, rest)
    | '"' :: rest => do
      let (content, after) ← textBody rest
      some (text (String.ofList content), after)
    | '[' :: rest =>
      match skip rest with
      | ']' :: after => some (list [], after)
      | r => do
        let (items, after) ← items? numeral room levels room r
        some (list items, after)
    | '{' :: rest =>
      match skip rest with
      | '}' :: after => some (mapping [], after)
      | r => do
        let (members, after) ← members? numeral room levels room r
        some (mapping (Dictionary.ofList members), after)
    | '-' :: rest => do
      let (n, after) ← numeral.read? true rest
      some (scalar n, after)
    | _ => do
      let (n, after) ← numeral.read? false s
      some (scalar n, after)
termination_by (levels, 0)

/-- The items of a list up to its closing bracket, at most `count` of them. -/
def items? (numeral : Numeral) (room levels count : Nat) (s : List Char) : Option (List Document × List Char) :=
  match count with
  | 0 => none
  | count + 1 => do
    let (item, after) ← document? numeral room levels (skip s)
    match skip after with
    | ',' :: rest => do
      let (others, final) ← items? numeral room levels count rest
      some (item :: others, final)
    | ']' :: rest => some ([item], rest)
    | _ => none
termination_by (levels, count + 1)

/-- The members of a mapping up to its closing brace, at most `count` of them. -/
def members? (numeral : Numeral) (room levels count : Nat) (s : List Char) :
    Option (List (Scalar × Document) × List Char) :=
  match count with
  | 0 => none
  | count + 1 =>
    match skip s with
    | '"' :: rest => do
      let (name, afterName) ← textBody rest
      match skip afterName with
      | ':' :: rest => do
        let (value, after) ← document? numeral room levels (skip rest)
        let entry := (Scalar.text (String.ofList name), value)
        match skip after with
        | ',' :: rest => do
          let (others, final) ← members? numeral room levels count rest
          some (entry :: others, final)
        | '}' :: rest => some ([entry], rest)
        | _ => none
      | _ => none
    | _ => none
termination_by (levels, count + 1)

end

end Reader

/-- The document that a text holds, with numbers written in this way; nothing if the
    text is malformed. -/
def readWith? (numeral : Reader.Numeral) (source : String) : Option Document := do
  let s := Reader.skip source.toList
  let (d, rest) ← Reader.document? numeral s.length (s.length + 1) s
  if Reader.skip rest = [] then some d else none

/-- The document that a text in JSON holds. -/
def read? (source : String) : Option Document :=
  readWith? .json source

end RequestTemplate.Document
