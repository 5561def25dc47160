import RequestTemplate.Dictionary
import RequestTemplate.Document.Decimal

/-!
# Documents

The data that request files, bodies and settings are made of: scalars, lists and
mappings in the order in which they were written. A document read from a file may
hold dates and keys that are no text; a body or an authentication may not. Numbers
are finite. They may have any number of digits, and documents any number of levels:
the limits that an interpreter sets to both are left out.
-/

namespace RequestTemplate

inductive Scalar where
  | null
  | bool (value : Bool)
  | integer (value : Int)
  | decimal (value : Decimal)
  | text (content : String)
  | date (day : String)
  | dateTime (day time : String)
  deriving DecidableEq, Inhabited

inductive Document where
  | scalar (value : Scalar)
  | list (items : List Document)
  | mapping (entries : List (Scalar × Document))
  deriving Inhabited

/-- The scalar that stands for all keys equal to this one: numbers and truth
    values that are equal are one key. -/
def Scalar.representative : Scalar → Scalar
  | bool false => integer 0
  | bool true => integer 1
  | decimal d =>
    match d.toInt? with
    | some n => integer n
    | none => decimal d
  | s => s

namespace Document

def null : Document := scalar .null
def bool (value : Bool) : Document := scalar (.bool value)
def integer (value : Int) : Document := scalar (.integer value)
def text (content : String) : Document := scalar (.text content)

/-- A mapping with text for keys. -/
def object (members : List (String × Document)) : Document :=
  mapping (members.map fun (name, value) => (.text name, value))

/-- A mapping of pairs that are inserted one after the other. -/
def ofPairs (pairs : List (Scalar × Document)) : Document :=
  mapping (pairs.foldl
    (fun d (key, value) =>
      Dictionary.insertBy (fun a b => a.representative == b.representative) key value d) [])

/-- What a mapping holds under a name. -/
def member? (name : String) : Document → Option Document
  | mapping entries => List.lookup (Scalar.text name) entries
  | _ => none

/-- Whether the document is empty: nothing, no text, no entry, zero or false. -/
def isEmpty : Document → Bool
  | scalar .null => true
  | scalar (.bool b) => !b
  | scalar (.integer n) => n == 0
  | scalar (.decimal d) => d.digits == 0
  | scalar (.text s) => s == ""
  | scalar (.date _) => false
  | scalar (.dateTime _ _) => false
  | list items => items.isEmpty
  | mapping entries => entries.isEmpty

end Document

end RequestTemplate
