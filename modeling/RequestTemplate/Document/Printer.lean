import RequestTemplate.Document.Basic
import RequestTemplate.Text.Quoted

/-!
# Writing documents

Documents as JSON text. A `Style` says how deep members are indented, or that
all stands on one line, and whether characters outside ASCII are escaped.
-/

namespace RequestTemplate

/-- The text that stands for a scalar where only text can, such as a key. -/
def Scalar.toText : Scalar → String
  | null => "null"
  | bool true => "true"
  | bool false => "false"
  | integer n => toString n
  | decimal d => d.print .name
  | text s => s
  | date day => day
  | dateTime day time => day ++ " " ++ time

namespace Document

structure Style where
  indent : Option Nat
  asciiOnly : Bool
  deriving DecidableEq, Inhabited

def Style.line : Style := ⟨none, true⟩
def Style.asciiBlock : Style := ⟨some 2, true⟩
def Style.block : Style := ⟨some 2, false⟩

def unitEscape (n : Nat) : List Char :=
  '\\' :: 'u' :: Text.hex 4 n

/-- The characters that stand for `c` in quoted text. -/
def Style.char (style : Style) (c : Char) : List Char :=
  let n := c.toNat
  if c = '"' ∨ c = '\\' then ['\\', c]
  else if n = 0x08 then ['\\', 'b']
  else if c = '\t' then ['\\', 't']
  else if c = '\n' then ['\\', 'n']
  else if n = 0x0C then ['\\', 'f']
  else if c = '\r' then ['\\', 'r']
  else if n < 0x20 then unitEscape n
  else if n < 0x7F ∨ style.asciiOnly = false then [c]
  else if n < 0x10000 then unitEscape n
  else unitEscape (0xD800 + (n - 0x10000) / 0x400) ++ unitEscape (0xDC00 + (n - 0x10000) % 0x400)

def Style.quote (style : Style) (s : String) : String :=
  String.ofList ('"' :: s.toList.flatMap style.char ++ ['"'])

def Style.scalar (style : Style) : Scalar → String
  | .null => "null"
  | .bool true => "true"
  | .bool false => "false"
  | .integer n => toString n
  | .decimal d => d.print .value
  | s => style.quote s.toText

/-- Starts a line at a depth, where lines are started at all. -/
def Style.newline (style : Style) (depth : Nat) : String :=
  match style.indent with
  | none => ""
  | some width => String.ofList ('\n' :: List.replicate (width * depth) ' ')

/-- Items between brackets, each on a line of its own. -/
def Style.enclose (style : Style) (depth : Nat) (opening closing : String)
    (items : List String) : String :=
  if items.isEmpty then opening ++ closing
  else
    opening ++ style.newline (depth + 1) ++
      String.intercalate ("," ++ style.newline (depth + 1)) items ++
      style.newline depth ++ closing

def Style.member (style : Style) (name value : String) : String :=
  name ++ (if style.indent.isSome then ": " else ":") ++ value

mutual

/-- The text of a document whose first character stands at `depth`. -/
def printAt (style : Style) (depth : Nat) : Document → String
  | .scalar s => style.scalar s
  | .list items => style.enclose depth "[" "]" (printItems style (depth + 1) items)
  | .mapping entries =>
    style.enclose depth "\x7b" "\x7d" (printEntries style (depth + 1) entries)

def printItems (style : Style) (depth : Nat) : List Document → List String
  | [] => []
  | item :: rest => printAt style depth item :: printItems style depth rest

def printEntries (style : Style) (depth : Nat) : List (Scalar × Document) → List String
  | [] => []
  | (key, value) :: rest =>
    style.member (style.quote key.toText) (printAt style depth value) ::
      printEntries style depth rest

end

def print (style : Style) (d : Document) : String :=
  printAt style 0 d

end Document

end RequestTemplate
