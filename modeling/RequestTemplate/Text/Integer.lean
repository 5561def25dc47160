import RequestTemplate.Text.Blank

/-!
# Whole numbers in text

Reads the number that a text names. White space around it, a plus sign, zeros in
front of it or behind the sign it begins with, and zeros as its fraction count for
nothing, and single underscores may stand between its digits. What is left is a bare number: a minus
sign or none, and digits in ASCII without a zero in front. It may be `longest`
characters long.
-/

namespace RequestTemplate.Text

inductive NotInteger where
  | malformed
  | tooLong
  deriving DecidableEq, Inhabited

/-- How many characters a bare number may have, its sign included. -/
def longest : Nat := 4300

/-! ## What counts for nothing -/

/-- The minus sign that a text begins with, and what stands behind it. A plus sign
    counts for nothing, and a minus sign behind it is none of the number. -/
def splitSign? : List Char → Option (List Char × List Char)
  | '+' :: '-' :: _ => none
  | '+' :: rest => some ([], rest)
  | '-' :: rest => some (['-'], rest)
  | s => some ([], s)

/-- A digit other than zero, or a minus sign. -/
def startsBare (c : Char) : Bool := ('1' ≤ c && c ≤ '9') || c == '-'

/-- The number behind a zero or an underscore among zeros; the last of them stays
    where nothing or a fraction follows. -/
def behindZeros? (last : Char) : List Char → Option (List Char)
  | [] => some [last]
  | c :: rest =>
    if c = '0' ∨ c = '_' then behindZeros? c rest
    else if startsBare c then some (c :: rest)
    else if c = '.' then some (last :: c :: rest)
    else none

/-- The number without the zeros in front of it, and without the underscores among
    these. -/
def withoutZeros? : List Char → Option (List Char)
  | [] => none
  | c :: rest =>
    if c = '0' then behindZeros? c rest
    else if startsBare c then some (c :: rest)
    else none

/-- The number without a fraction of zeros, of which there has to be one. -/
def withoutFraction (s : List Char) : List Char :=
  match s.dropWhile (· != '.') with
  | '.' :: '0' :: zeros =>
    if zeros.all (· == '0') then s.takeWhile (· != '.') else s
  | _ => s

/-- Whether two underscores stand side by side. -/
def hasDoubleUnderscore : List Char → Bool
  | '_' :: '_' :: _ => true
  | _ :: rest => hasDoubleUnderscore rest
  | [] => false

/-- The number without underscores, if all of them stand alone and inside it. -/
def withoutUnderscores (s : List Char) : List Char :=
  if s.head? = some '_' ∨ s.getLast? = some '_' ∨ hasDoubleUnderscore s then s
  else s.filter (· != '_')

/-! ## Bare numbers -/

/-- The value of digits in ASCII. -/
def digitsValue (digits : List Char) : Nat :=
  digits.foldl (fun n c => n * 10 + (c.toNat - 48)) 0

/-- The value of a text of digits, of which at most `room` may be there. A zero in
    front of others is none of them. -/
def natural (room : Nat) : List Char → Except NotInteger Nat
  | '0' :: rest => if rest = [] then .ok 0 else .error .malformed
  | s =>
    let digits := s.takeWhile Char.isDigit
    if room < digits.length then .error .tooLong
    else if digits = [] ∨ digits.length < s.length then .error .malformed
    else .ok (digitsValue digits)

def bare : List Char → Except NotInteger Int
  | '-' :: rest => (natural (longest - 1) rest).map fun n => -(n : Int)
  | s => (natural longest s).map fun n => (n : Int)

/-- The whole number that a text names. -/
def integer (source : String) : Except NotInteger Int :=
  match splitSign? (strip isWhiteSpace source.toList) with
  | none => .error .malformed
  | some (sign, unsigned) =>
    match withoutZeros? unsigned with
    | none => .error .malformed
    | some number => bare (sign ++ withoutUnderscores (withoutFraction number))

end RequestTemplate.Text
