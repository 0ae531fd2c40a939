import Chip8Console.Number.BinaryFloat

/-!
Rectangles of terminal cells with their corner at the origin. One holds at most 65535 cells; a larger
one is shrunk to that many, roughly keeping its proportions.
-/
namespace Chip8Console

structure Area where
  width : Nat
  height : Nat
deriving DecidableEq, Repr

namespace Area

def limit : Nat := 65535

/-- The sides of a rectangle too large to hold, shrunk in floating point: the height is the root of the
limit over the proportion, the width is that root times the proportion, and both are cut to whole
cells only then. -/
def shrink (width height : Nat) : Area :=
  let f := Number.double
  let proportion := f.div (f.ofNat width) (f.ofNat height)
  let root := f.sqrt (f.div (f.ofNat limit) proportion)
  ⟨f.floor (f.mul root proportion), f.floor root⟩

def ofSides (width height : Nat) : Area :=
  if limit < width * height then shrink width height else ⟨width, height⟩

def meet (a b : Area) : Area := ⟨min a.width b.width, min a.height b.height⟩

end Area

end Chip8Console
