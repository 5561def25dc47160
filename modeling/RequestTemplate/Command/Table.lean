/-!
# Tables

A table of text with a title, drawn with lines. Every column but the last is as
wide as its widest cell; the last one takes what is left of the line, and its
cells are broken between words.
-/

namespace RequestTemplate.Command.Table

def spaces (n : Nat) : String := "".pushn ' ' n

def padRight (width : Nat) (s : String) : String := s ++ spaces (width - s.length)

/-- Breaks words into lines of at most `width` characters; a longer word has a
    line of its own. -/
def wrap (width : Nat) (line : String) : List String → List String
  | [] => if line = "" then [] else [line]
  | word :: rest =>
    if line = "" then wrap width word rest
    else if line.length + 1 + word.length ≤ width then wrap width (line ++ " " ++ word) rest
    else line :: wrap width word rest

/-- The lines of a cell, at least one. -/
def cellLines (width : Nat) (cell : String) : List String :=
  match wrap width "" (cell.splitOn " ") with
  | [] => [""]
  | lines => lines

/-- A rule across the table. -/
def across (left fill cross right : String) (widths : List Nat) : String :=
  left ++ String.intercalate cross (widths.map fun w => String.join (List.replicate (w + 2) fill)) ++
    right

/-- One line of cells between bars. -/
def line (bar : String) (widths : List Nat) (cells : List String) : String :=
  bar ++ String.intercalate bar
    ((widths.zip cells).map fun (w, cell) => " " ++ padRight w cell ++ " ") ++ bar

/-- The lines of a row whose last cell is broken into several. -/
def rowLines (bar : String) (widths : List Nat) (cells : List String) : List String :=
  let last := widths.getLastD 0
  let broken := cellLines last (cells.getLastD "")
  let first := cells.dropLast
  broken.zipIdx.map fun (part, i) =>
    line bar widths ((if i = 0 then first else first.map fun _ => "") ++ [part])

/-- The widths of the columns of a table that fills `total` characters. -/
def widths (total : Nat) (rows : List (List String)) : List Nat :=
  match rows with
  | [] => []
  | header :: _ =>
    let fixed := (List.range (header.length - 1)).map fun i =>
      rows.foldl (fun w row => max w ((row[i]?).getD "").length) 0
    let used := fixed.foldl (fun n w => n + w + 3) 0
    fixed ++ [total - used - 4]

def centered (total : Nat) (title : String) : String :=
  let left := (total - title.length) / 2
  spaces left ++ title ++ spaces (total - title.length - left)

/-- The lines of a table. -/
def draw (total : Nat) (title : String) (header : List String) (rows : List (List String)) :
    List String :=
  let ws := widths total (header :: rows)
  [centered total title, across "┏" "━" "┳" "┓" ws] ++ rowLines "┃" ws header ++
    [across "┡" "━" "╇" "┩" ws] ++ rows.flatMap (rowLines "│" ws) ++
    [across "└" "─" "┴" "┘" ws]

end RequestTemplate.Command.Table
