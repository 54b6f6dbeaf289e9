import Reckoner.Text.Blank

/-!
Tables in box-drawing characters. A table that would be too wide has its widest column narrowed,
and longer cells in it end in an ellipsis.
-/

namespace Reckoner.Terminal

structure Column where
  heading : List Char
  alignedRight : Bool
  cells : List (List Char)

namespace Column

def natural (c : Column) : Nat :=
  c.cells.foldl (fun w cell => max w cell.length) c.heading.length

end Column

namespace Table

def maxWidth : Nat := 80

/-- The width of a whole table: each column has a blank on both sides and a line before it, and
the last one a line behind it. -/
def totalWidth (widths : List Nat) : Nat :=
  widths.foldr (fun w n => w + 3 + n) 1

/-- Takes the excess from the first column of the greatest width. -/
def narrowed (excess : Nat) (widths : List Nat) : List Nat :=
  widths.set (widths.idxOf (widths.foldl max 0)) (widths.foldl max 0 - excess)

def widths (columns : List Column) : List Nat :=
  let ws := columns.map (·.natural)
  narrowed (totalWidth ws - maxWidth) ws

def blanks (n : Nat) : List Char :=
  List.replicate n ' '

/-- A cell in exactly `w` characters. -/
def fitted (alignedRight : Bool) (w : Nat) (cell : List Char) : List Char :=
  if w < cell.length then cell.take (w - 1) ++ ['…']
  else if alignedRight then blanks (w - cell.length) ++ cell
  else cell ++ blanks (w - cell.length)

def centred (w : Nat) (title : List Char) : List Char :=
  let left := (w - title.length) / 2
  blanks left ++ title ++ blanks (w - title.length - left)

def rule (first line between last : Char) (ws : List Nat) : List Char :=
  first :: ([between].intercalate (ws.map fun w => List.replicate (w + 2) line) ++ [last])

def row (side : Char) (cells : List (List Char)) : List Char :=
  side :: ([side].intercalate (cells.map fun c => ' ' :: (c ++ [' '])) ++ [side])

def headings (columns : List Column) (ws : List Nat) : List (List Char) :=
  List.zipWith (fun c w => fitted false w c.heading) columns ws

def cellsAt (columns : List Column) (ws : List Nat) (i : Nat) : List (List Char) :=
  List.zipWith (fun c w => fitted c.alignedRight w (c.cells.getD i [])) columns ws

def height (columns : List Column) : Nat :=
  columns.foldl (fun n c => max n c.cells.length) 0

def lines (title : String) (columns : List Column) : List (List Char) :=
  let ws := widths columns
  [centred (totalWidth ws) title.toList, rule '┏' '━' '┳' '┓' ws, row '┃' (headings columns ws),
      rule '┡' '━' '╇' '┩' ws] ++
    (List.range (height columns)).map (fun i => row '│' (cellsAt columns ws i)) ++
    [rule '└' '─' '┴' '┘' ws]

def render (title : String) (columns : List Column) : String :=
  String.ofList ((lines title columns).flatMap (· ++ ['\n']))

end Table
end Reckoner.Terminal
