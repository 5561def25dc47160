import RequestTemplate.Document.Normal
import RequestTemplate.Schema.Issue

/-!
# Checked data

A reader takes a document and gives a value, or says what is wrong. All issues of
a value are found, in the order of its members. The members of a mapping have
labels with two spellings.
-/

namespace RequestTemplate.Schema

/-- Why data is refused. A date as the name of a member outweighs all issues. -/
inductive Refusal where
  | issues (found : List Issue)
  | dateName (kind : DateKind)
  deriving DecidableEq, Inhabited

def Checked (α : Type) : Type := Except Refusal α

namespace Checked

variable {α β : Type}

def refuse (complaint : Complaint) : Checked α :=
  .error (.issues [⟨[], complaint⟩])

/-- Both values, or what is wrong with both. -/
def both : Checked (α → β) → Checked α → Checked β
  | .ok f, .ok a => .ok (f a)
  | .ok _, .error e => .error e
  | .error (.issues found), .error (.issues more) => .error (.issues (found ++ more))
  | .error (.issues _), .error (.dateName kind) => .error (.dateName kind)
  | .error e, _ => .error e

instance : Applicative Checked where
  pure a := .ok a
  seq f a := both f (a ())

/-- What is said of a part, as said of the whole. -/
def under (step : Step) : Checked α → Checked α
  | .error (.issues found) =>
    .error (.issues (found.map fun i => ⟨step :: i.path, i.complaint⟩))
  | checked => checked

end Checked

abbrev Reader (α : Type) := Document → Checked α

/-! ## Labels -/

/-- The two spellings of a member: as exchanged files write it and as hand
    written ones do. -/
structure Label where
  camel : String
  snake : String
  deriving DecidableEq, Inhabited

/-- A label that has only one spelling. -/
def Label.plain (name : String) : Label := ⟨name, name⟩

/-- Which spelling of the labels is written. -/
inductive Naming where
  | camel
  | snake
  deriving DecidableEq, Inhabited

def Label.under (naming : Naming) (label : Label) : String :=
  match naming with
  | .camel => label.camel
  | .snake => label.snake

abbrev Entries := List (Scalar × Document)

end RequestTemplate.Schema
