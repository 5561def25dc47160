import RequestTemplate.Schema.Lax

/-!
# Reading data by a schema

Models are read from their members, each of which has a label and a type, and is
either required or has a default. Models are written under either spelling of the
labels.
-/

namespace RequestTemplate.Schema

variable [Lax] {α : Type}

/-- A whole number that is not negative. -/
def natural : Reader Nat := fun d =>
  match Lax.integer d with
  | .ok n => if 0 ≤ n then pure n.toNat else .refuse .greaterThanEqual
  | .error e => .error e

/-! ## Lists and mappings -/

/-- The items from an index on. -/
def itemsFrom (item : Reader α) (index : Nat) : List Document → Checked (List α)
  | [] => pure []
  | d :: rest => List.cons <$> (item d).under (.item index) <*> itemsFrom item (index + 1) rest

def listOf (item : Reader α) : Reader (List α) := fun d =>
  match Lax.items d with
  | .ok items => itemsFrom item 0 items
  | .error e => .error e

/-- A mapping, turned into plain JSON. -/
def json : Reader (Dictionary String Document) := fun d =>
  match d.toJson with
  | .error kind => .error (.dateName kind)
  | .ok plain => Lax.dictionary plain

/-! ## Members of a model -/

def required (entries : Entries) (label : Label) (reader : Reader α) : Checked α :=
  match Lax.find? label entries with
  | some (name, d) => (reader d).under (.member name)
  | none => Checked.under (.member label.camel) (.refuse .missing)

def withDefault (entries : Entries) (label : Label) (reader : Reader α) (absent : α) :
    Checked α :=
  match Lax.find? label entries with
  | some (name, d) => (reader d).under (.member name)
  | none => pure absent

def model (members : Entries → Checked α) : Reader α := fun d =>
  match Lax.entries d with
  | .ok entries => members entries
  | .error e => .error e

/-- Reads a whole model, whose name failures show. -/
def validate (name : String) (reader : Reader α) (d : Document) : Except Failure α :=
  match reader d with
  | .ok a => .ok a
  | .error (.issues found) => .error (.invalid name found)
  | .error (.dateName kind) => .error (.notAKey kind)

/-! ## Writing models -/

def ofOptionalText : Option String → Document
  | some s => .text s
  | none => .null

/-- A model from its members in order. -/
def write (naming : Naming) (members : List (Label × Document)) : Document :=
  .object (members.map fun (label, d) => (label.under naming, d))

end RequestTemplate.Schema
