import Chip8Console.Error
import Chip8Console.Machine.Frame
import Chip8Console.Number.Word

/-!
Screens and the pictures painted on them. A picture is painted as square blocks, one for each lit
pixel; a screen only ever clears its surface, takes blocks and presents what it has taken.
-/
namespace Chip8Console

/-- A square on a surface, given by its top left corner and the length of its side. -/
structure Block where
  column : Nat
  row : Nat
  size : Nat
deriving DecidableEq, Repr

/-- Whether the corner of a block is given by words. -/
def Block.isPlaced (b : Block) : Bool := decide (b.column < Word.limit ∧ b.row < Word.limit)

/-- A screen that the console can paint on. -/
class Display (D : Type) where
  /-- Blank the whole surface. -/
  clear : D → D
  /-- Fill one block. -/
  paint : D → Block → D
  /-- Show what was painted since the surface was last blanked. -/
  present : D → Except Cause Unit × D
  /-- Show a line of text about what is running. -/
  caption : D → String → D

def pixelsLit (count : Nat) (lit : List Nat) : List Pixel :=
  (lit.foldl (fun pixels place => pixels.setIfInBounds place 1) (Array.replicate count 0)).toList

/-- The blocks of a picture of `width` columns, row by row: one for each lit pixel, `scale` wide and
high. -/
def litBlocks (pixels : List Pixel) (width scale : Nat) : List Block :=
  pixels.zipIdx.filterMap fun (pixel, i) =>
    if pixel = 0 then none else some ⟨i % width * scale, i / width * scale, scale⟩

namespace Display

def showBlocks {D : Type} [Display D] (screen : D) (blocks : List Block) : Except Cause Unit × D :=
  present (blocks.foldl paint (clear screen))

/-- Show a picture of any width. Finding the column of a lit pixel divides by the width, so a
picture without columns must be dark, and the corners of the blocks must be words. -/
def showPixels {D : Type} [Display D] (screen : D) (pixels : List Pixel) (width scale : Nat) :
    Except ArithmeticFault (Except Cause Unit × D) :=
  let blocks := litBlocks pixels width scale
  if width = 0 ∧ !blocks.isEmpty then .error .remainderByZero
  else if blocks.all Block.isPlaced then .ok (showBlocks screen blocks)
  else .error .multiplication

/-- A picture with columns whose blocks have words for corners is shown block by block. -/
theorem showPixels_eq_ok {D : Type} [Display D] (screen : D) (pixels : List Pixel) (width scale : Nat)
    (hw : width ≠ 0) (hb : ∀ b ∈ litBlocks pixels width scale, b.isPlaced = true) :
    showPixels screen pixels width scale =
      .ok (showBlocks screen (litBlocks pixels width scale)) := by
  have hall : (litBlocks pixels width scale).all Block.isPlaced = true := List.all_eq_true.2 hb
  simp only [showPixels, hw, false_and, if_false, hall, if_true]

def showFrame {D : Type} [Display D] (screen : D) (frame : Frame) (scale : Nat) :
    Except ArithmeticFault (Except Cause Unit × D) :=
  showPixels screen frame.toList Frame.width scale

end Display

end Chip8Console
