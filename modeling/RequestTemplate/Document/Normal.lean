import RequestTemplate.Document.Printer
import RequestTemplate.Failure

/-!
# Plain JSON from documents

Turns a document that was read from a file into plain JSON: names of members
become text, and dates become the text of the day or the moment. A date cannot
be the name of a member. Names that become equal are one member, in the first
place and with the last value.
-/

namespace RequestTemplate

/-- The name of a member. -/
def Scalar.name : Scalar → Except DateKind String
  | .date _ => .error .date
  | .dateTime _ _ => .error .dateTime
  | s => .ok s.toText

/-- A scalar of JSON. -/
def Scalar.toJson : Scalar → Scalar
  | .date day => .text (Scalar.date day).toText
  | .dateTime day time => .text (Scalar.dateTime day time).toText
  | s => s

namespace Document

mutual

def toJson : Document → Except DateKind Document
  | .scalar s => .ok (.scalar s.toJson)
  | .list items => do
    let items ← itemsToJson items
    .ok (.list items)
  | .mapping entries => do
    let members ← entriesToJson entries
    .ok (.mapping (Dictionary.ofList members))

def itemsToJson : List Document → Except DateKind (List Document)
  | [] => .ok []
  | item :: rest => do
    let first ← toJson item
    let others ← itemsToJson rest
    .ok (first :: others)

def entriesToJson : List (Scalar × Document) → Except DateKind (List (Scalar × Document))
  | [] => .ok []
  | (key, value) :: rest => do
    let name ← key.name
    let first ← toJson value
    let others ← entriesToJson rest
    .ok ((.text name, first) :: others)

end

end Document

end RequestTemplate
