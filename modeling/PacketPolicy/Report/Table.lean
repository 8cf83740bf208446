import PacketPolicy.Text.Blank
import PacketPolicy.Text.Width

/-!
This module contains tables drawn with plain characters. A cell may have several lines, numbers are
set to the right, and in some columns a cell that repeats the one above it is left blank.
-/

namespace PacketPolicy

structure Table where
  header : List String
  rows : List (List String)
  /-- The columns in which repeated cells are left blank. -/
  merged : List Nat
  deriving Repr

namespace Table

def cellLines (cell : String) : List String :=
  (cell.toList.splitOn '\n').map String.ofList

def cellWidth (cell : String) : Nat :=
  (cellLines cell).foldl (fun n line => max n (Text.width line)) 0

def widths (t : Table) : List Nat :=
  t.rows.foldl (fun ws row => List.zipWith max ws (row.map cellWidth)) (t.header.map cellWidth)

def spaces (n : Nat) : String :=
  String.ofList (List.replicate n ' ')

def padRight (width : Nat) (s : String) : String :=
  s ++ spaces (width - Text.width s)

def padLeft (width : Nat) (s : String) : String :=
  spaces (width - Text.width s) ++ s

/--
Sets a text in the middle, or half a column to the left of it.
-/
def centre (width : Nat) (s : String) : String :=
  let gap := width - Text.width s
  spaces (gap / 2) ++ s ++ spaces (gap - gap / 2)

def isDigits (cs : List Char) : Bool :=
  !cs.isEmpty && cs.all Char.isDigit

def isWhole (cs : List Char) : Bool :=
  match cs.splitOn ',' with
  | [digits] => isDigits digits
  | first :: groups =>
    isDigits first && first.length ≤ 3 && groups.all fun g => isDigits g && g.length == 3
  | [] => false

def isNumber (s : String) : Bool :=
  let cs := match s.toList with
    | '-' :: cs => cs
    | cs => cs
  match cs.splitOn '.' with
  | [whole] => isWhole whole
  | [whole, fraction] => isWhole whole && isDigits fraction
  | _ => false

def align (width : Nat) (s : String) : String :=
  if isNumber (Text.trim s) then padLeft width s else padRight width s

def border (widths : List Nat) : String :=
  "+" ++ String.join (widths.map fun w => String.ofList (List.replicate (w + 2) '-') ++ "+") ++ "\n"

def textLine (cells : List String) : String :=
  String.join (cells.map fun c => "| " ++ c ++ " ") ++ "|\n"

def height (row : List (List String)) : Nat :=
  row.foldl (fun n lines => max n lines.length) 0

def level (filler : String) (row : List (List String)) : List (List String) :=
  row.map fun lines => lines ++ List.replicate (height row - lines.length) filler

def rowLines (row : List (List String)) : List (List String) :=
  (List.range (height row)).map fun n => row.map fun lines => lines.getD n ""

def cellKey (lines : List String) : String :=
  String.ofList ((String.intercalate " " lines).toList.reverse.dropWhile (· == ' ')).reverse

def repeats (t : Table) (column : Nat) (above : Option (List String)) (lines : List String) :
    Bool :=
  let key := cellKey lines
  t.merged.contains column && key != "" && (above.map cellKey) == some key

def drawn (t : Table) (above : List (List String)) : List (List String) → List (List (List String))
  | [] => []
  | row :: rows =>
    let cells := level "  " (row.map cellLines)
    let shown := cells.zipIdx.map fun (lines, column) =>
      if t.repeats column above[column]? lines then lines.map fun _ => "" else lines
    shown :: t.drawn cells rows

def render (t : Table) : String :=
  let ws := t.widths
  let header := rowLines (level "" (t.header.map cellLines))
  let rows := (t.drawn [] t.rows).flatMap rowLines
  border ws
    ++ String.join (header.map fun line => textLine (List.zipWith centre ws line))
    ++ border ws
    ++ String.join (rows.map fun line => textLine (List.zipWith align ws line))
    ++ border ws

end Table
end PacketPolicy
