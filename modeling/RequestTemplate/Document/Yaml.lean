import RequestTemplate.Document.Reader
import RequestTemplate.Failure

/-!
# Loading YAML

Files hold YAML. Its syntax belongs to the library that loads them, so the loader is
a parameter of everything that reads files. The program runs with a loader of the
texts that are JSON. YAML 1.1 agrees with JSON on the numbers in them only where these
have no exponent, or a point and an exponent with a sign; it takes any other number
for a text.
-/

namespace RequestTemplate

/-- What a text in YAML holds, or why it cannot be loaded. -/
class Yaml where
  load (source : String) : Except Failure Document

namespace Yaml

/-- Whether an exponent begins somewhere in the text. -/
def hasExponent (s : List Char) : Bool :=
  s.any fun c => c == 'e' || c == 'E'

/-- Whether an exponent with a sign begins somewhere in the text. -/
def hasSignedExponent : List Char → Bool
  | e :: sign :: rest =>
    ((e == 'e' || e == 'E') && (sign == '-' || sign == '+')) || hasSignedExponent (sign :: rest)
  | _ => false

/-- Whether a number of JSON is a number in YAML 1.1. -/
def isNumber (s : List Char) : Bool :=
  !hasExponent s || (s.contains '.' && hasSignedExponent s)

open Document.Reader

/-- A number of JSON, or the text that it is in YAML. -/
def number? (negative : Bool) (s : List Char) : Option (Scalar × List Char) :=
  (Document.Reader.number? negative s).map fun (n, rest) =>
    let spelled := s.take (s.length - rest.length)
    if isNumber spelled then (n, rest)
    else (.text (String.ofList (if negative then '-' :: spelled else spelled)), rest)

theorem exists_of_number? {negative : Bool} {s : List Char} {r : Scalar × List Char}
    (read : number? negative s = some r) : ∃ c rest, s = c :: rest ∧ c.isDigit = true := by
  obtain ⟨_, read, -⟩ := Option.map_eq_some_iff.1 read
  exact Document.Reader.exists_of_number? read

/-- Numbers of JSON as YAML takes them. -/
def numeral : Numeral :=
  ⟨number?, exists_of_number?⟩

/-- Loads texts in JSON. Of others nothing is said but that they are refused. -/
def loadJson (source : String) : Except Failure Document :=
  if skip source.toList = [] then .ok .null
  else
    match Document.readWith? numeral source with
    | some d => .ok d
    | none => .error (.runtime "")

instance : Yaml :=
  ⟨loadJson⟩

end Yaml

end RequestTemplate
