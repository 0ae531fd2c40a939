import Chip8Console.Screen.Resolution

/-!
What a terminal shows of a surface: a frame of lines with a title in its top edge, and inside it the
points of the surface, brought to the cells there are. A point keeps its place if the surface fits, and
otherwise moves in proportion. A frame needs a cell inside it.
-/
namespace Chip8Console

/-- A framed picture in the top left corner of a terminal. -/
structure Picture where
  /-- the room taken, the frame included -/
  area : Area
  /-- what the title shows, a character for each column -/
  title : List Char
  /-- which cells inside the frame are filled, row by row -/
  filled : Array Bool

namespace Picture

def inner (side : Nat) : Nat := side - 2

/-- Where a column or row of a surface with `count` of them falls among `cells` cells. A surface of
one column or row has no extent to be brought to the cells. -/
def place? (count cells n : Nat) : Option Nat :=
  if count ≤ 1 then none else some (Number.double.floorScaled n (cells - 1) (count - 1))

/-- The number of the cell inside the frame at which a point falls, if it falls at one. -/
def cell? (area : Area) (surface : Resolution) (p : SurfacePoint) : Option Nat :=
  match place? surface.width (inner area.width) p.column,
      place? surface.height (inner area.height) p.row with
  | some column, some row =>
    if column < inner area.width ∧ row < inner area.height then
      some (row * inner area.width + column)
    else none
  | _, _ => none

/-- The characters of a text that take a column of the title: all but line feeds and the carriage
returns right before them. -/
def titleCells : List Char → List Char
  | [] => []
  | '\r' :: '\n' :: rest => titleCells rest
  | '\n' :: rest => titleCells rest
  | c :: rest => c :: titleCells rest

def fill (area : Area) (surface : Resolution) (points : Array SurfacePoint) : Array Bool :=
  points.foldl
    (fun cells p => match cell? area surface p with
      | some n => cells.setIfInBounds n true
      | none => cells)
    (Array.replicate (inner area.width * inner area.height) false)

/-- The picture of some points of a surface. The last column and row inside the frame are worked out, so
there must be one of each. -/
def ofPoints (area : Area) (title : String) (surface : Resolution) (points : Array SurfacePoint) :
    Except ArithmeticFault Picture := do
  let _ ← Word.before (inner area.width)
  let _ ← Word.before (inner area.height)
  return { area, title := titleCells title.toList, filled := fill area surface points }

def isFilled (p : Picture) (column row : Nat) : Bool :=
  (p.filled[row * inner p.area.width + column]?).getD false

def fullCell : Char := '▄'

/-- The character of the frame at a column and row of its edge, the title apart. Corners win over
lines, and of corners that coincide the left one, then the top one. -/
def edge (area : Area) (column row : Nat) : Char :=
  let right := decide (column + 1 = area.width)
  let bottom := decide (row + 1 = area.height)
  if column = 0 ∧ row = 0 then '┌'
  else if column = 0 ∧ bottom then '└'
  else if right ∧ row = 0 then '┐'
  else if right ∧ bottom then '┘'
  else if row = 0 ∨ bottom then '─'
  else '│'

/-- The character of the title at a column, if the title reaches it. It begins in the second column
and leaves the corner free. -/
def titleAt? (p : Picture) (column : Nat) : Option Char :=
  if column = 0 then none else (p.title.take (inner p.area.width))[column - 1]?

def charAt (p : Picture) (column row : Nat) : Char :=
  if p.area.width ≤ column ∨ p.area.height ≤ row then ' '
  else if row = 0 then (p.titleAt? column).getD (edge p.area column row)
  else if column = 0 ∨ column + 1 = p.area.width ∨ row + 1 = p.area.height then
    edge p.area column row
  else if p.isFilled (column - 1) (row - 1) then fullCell
  else ' '

def rows (p : Picture) (terminal : Area) : List String :=
  (List.range terminal.height).map fun row =>
    String.ofList ((List.range terminal.width).map fun column => p.charAt column row)

end Picture

end Chip8Console
