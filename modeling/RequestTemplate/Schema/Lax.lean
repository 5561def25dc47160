import RequestTemplate.Schema.Checked
import RequestTemplate.Text.Integer

/-!
# Lax validation

The models say which members they have and of which types these are. What is
accepted for a type is up to the library that checks data against the models, so
its rules are a parameter of everything that is read. The rules that the program
runs with are an instance. They are lenient where the meaning is plain: truth values
may be written as words or digits, whole numbers as text.
-/

namespace RequestTemplate.Schema

/-- What is accepted for a member of each type, and for a model. -/
class Lax where
  text : Reader String
  optionalText : Reader (Option String)
  flag : Reader Bool
  integer : Reader Int
  /-- One of some values by its name. -/
  choice {α : Type} (values : List (String × α)) : Reader α
  items : Reader (List Document)
  /-- A mapping with text for keys, whatever its values are. -/
  dictionary : Reader (Dictionary String Document)
  /-- The mapping that a model is read from. -/
  entries : Reader Entries
  /-- A member of a model under one of its spellings, and the spelling. -/
  find? (label : Label) (entries : Entries) : Option (String × Document)

/-! ## The rules of the program -/

namespace Lax

def textOf : Reader String
  | .scalar (.text s) => pure s
  | _ => .refuse .stringType

def optionalTextOf : Reader (Option String)
  | .scalar .null => pure none
  | .scalar (.text s) => pure (some s)
  | _ => .refuse .stringType

/-- The truth value of a word, in letters of any case. -/
def flagOfWord? (word : String) : Option Bool :=
  let word := String.ofList (word.toList.map Char.toLower)
  if word ∈ ["0", "off", "f", "false", "n", "no"] then some false
  else if word ∈ ["1", "on", "t", "true", "y", "yes"] then some true
  else none

/-- Whether a number fits into 64 bits. -/
def isWord (n : Int) : Bool := -0x8000000000000000 ≤ n && n < 0x8000000000000000

/-- Why a decimal stands for no whole number that is read. -/
inductive NotWhole where
  | fraction
  | tooLarge
  deriving DecidableEq, Inhabited

/-- The whole number that a decimal stands for. Its size has to be below that of the
    least number of 64 bits. -/
def wholeOf (d : Decimal) : Except NotWhole Int :=
  match d.toInt? with
  | none => .error .fraction
  | some n => if n.natAbs < 0x8000000000000000 then .ok n else .error .tooLarge

/-- One and zero are the truth values among the numbers. -/
def flagOfInteger (n : Int) : Checked Bool :=
  if n = 0 then pure false else if n = 1 then pure true else .refuse .boolParsing

def flagOf : Reader Bool
  | .scalar (.bool b) => pure b
  | .scalar (.integer n) => if isWord n then flagOfInteger n else .refuse .boolType
  | .scalar (.decimal d) =>
    match wholeOf d with
    | .ok n => flagOfInteger n
    | .error _ => .refuse .boolType
  | .scalar (.text s) =>
    match flagOfWord? s with
    | some b => pure b
    | none => .refuse .boolParsing
  | _ => .refuse .boolType

def integerOf : Reader Int
  | .scalar (.bool b) => pure (if b then 1 else 0)
  | .scalar (.integer n) => pure n
  | .scalar (.decimal d) =>
    match wholeOf d with
    | .ok n => pure n
    | .error .fraction => .refuse .intFromFloat
    | .error .tooLarge => .refuse .intParsingSize
  | .scalar (.text s) =>
    match Text.integer s with
    | .ok n => pure n
    | .error .malformed => .refuse .intParsing
    | .error .tooLong => .refuse .intParsingSize
  | _ => .refuse .intType

def choiceOf {α : Type} (values : List (String × α)) : Reader α
  | .scalar (.text s) =>
    match values.lookup s with
    | some a => pure a
    | none => .refuse .enum
  | _ => .refuse .enum

def itemsOf : Reader (List Document)
  | .list items => pure items
  | _ => .refuse .listType

/-- The members of a mapping whose keys are texts. -/
def textMembers : List (Scalar × Document) → List (String × Document)
  | [] => []
  | (.text name, value) :: rest => (name, value) :: textMembers rest
  | _ :: rest => textMembers rest

def dictionaryOf : Reader (Dictionary String Document)
  | .mapping members => pure (textMembers members)
  | _ => .refuse .dictType

def entriesOf : Reader Entries
  | .mapping entries => pure entries
  | _ => .refuse .modelType

/-- The exchanged spelling is looked for first. -/
def member? (label : Label) (entries : Entries) : Option (String × Document) :=
  match entries.lookup (.text label.camel) with
  | some d => some (label.camel, d)
  | none => (entries.lookup (.text label.snake)).map fun d => (label.snake, d)

instance : Lax where
  text := textOf
  optionalText := optionalTextOf
  flag := flagOf
  integer := integerOf
  choice := choiceOf
  items := itemsOf
  dictionary := dictionaryOf
  entries := entriesOf
  find? := member?

end Lax

end RequestTemplate.Schema
