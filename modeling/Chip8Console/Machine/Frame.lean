/-!
The picture of a machine: 64 columns by 32 rows of pixels, row by row. Coordinates wrap at the
edges.
-/
namespace Chip8Console

/-- A pixel is lit unless it is zero. -/
abbrev Pixel := UInt8

namespace Frame

def width : Nat := 64

def height : Nat := 32

def size : Nat := width * height

abbrev Cell := Fin size

/-- The place of the pixel in a column and a row, both taken around the edges. -/
def cell (column row : Nat) : Cell :=
  ⟨row % height * width + column % width, by
    have hr : row % height < 32 := Nat.mod_lt _ (by decide)
    have hc : column % width < 64 := Nat.mod_lt _ (by decide)
    simp only [size, width, height] at *
    omega⟩

end Frame

abbrev Frame := Vector Pixel Frame.size

namespace Frame

def blank : Frame := Vector.replicate size 0

def isLit (frame : Frame) (place : Cell) : Bool := frame[place] != 0

def toggle (frame : Frame) (place : Cell) : Frame := frame.set place (frame[place] ^^^ 1)

/-- A row of the picture as a number, a bit for each pixel, the leftmost the highest. -/
def rowBits (frame : Frame) (row : Nat) : Nat :=
  (List.range width).foldl
    (fun bits column => 2 * bits + if frame.isLit (cell column row) then 1 else 0) 0

def single (place : Cell) : Frame := blank.set place 1

end Frame

end Chip8Console
