import Chip8Console.Number.Word
import Chip8Console.Screen.Area
import Chip8Console.Screen.Basic

/-!
The surface that pictures are painted on, in cells: its bounds, the room it takes with a border, and
the points that a block covers.
-/
namespace Chip8Console

structure Resolution where
  width : Nat
  height : Nat
deriving DecidableEq, Repr

/-- A cell of a surface, counted from the top left corner. -/
structure SurfacePoint where
  column : Nat
  row : Nat
deriving DecidableEq, Repr

namespace SurfacePoint

/-- The coordinate at which a column or row is drawn. Coordinates are binary floating point numbers, so
far out neighbours may share one. -/
def coordinate (n : Nat) : Nat := Number.double.nearestNat n

/-- The coordinates at which a cell is drawn, across and upwards: rows run down from zero. -/
def coordinates (p : SurfacePoint) : Int × Int := (coordinate p.column, -(coordinate p.row : Int))

end SurfacePoint

namespace Resolution

def ofPicture (width height scale : Nat) : Except ArithmeticFault Resolution := do
  return ⟨← Word.multiply width scale, ← Word.multiply height scale⟩

/-- Lowest and highest coordinate across. A surface without columns has no last one. -/
def xBounds (r : Resolution) : Except ArithmeticFault (Int × Int) :=
  (Word.before r.width).map fun last => (0, SurfacePoint.coordinate last)

def yBounds (r : Resolution) : Except ArithmeticFault (Int × Int) :=
  (Word.before r.height).map fun last => (-(SurfacePoint.coordinate last : Int), 0)

/-- Sides are cut to words of this many values before the border is added. -/
def sideLimit : Nat := 65536

private def bordered (side : Nat) : Except ArithmeticFault Nat :=
  let cut := side % sideLimit
  if sideLimit ≤ 2 + cut then .error .addition else .ok (2 + cut)

def area (r : Resolution) : Except ArithmeticFault Area := do
  let width ← bordered r.width
  let height ← bordered r.height
  return Area.ofSides width height

/-- A surface that fits on a terminal screen takes its own sides and the border. -/
theorem area_eq_ok {r : Resolution} (holds : (2 + r.width) * (2 + r.height) ≤ Area.limit) :
    r.area = .ok ⟨2 + r.width, 2 + r.height⟩ := by
  have hwidth := Nat.le_trans (Nat.le_mul_of_pos_right (2 + r.width) (by omega)) holds
  have hheight := Nat.le_trans (Nat.le_mul_of_pos_left (2 + r.height) (by omega)) holds
  simp only [Area.limit] at hwidth hheight
  have hbordered {side : Nat} (h : 2 + side ≤ 65535) : bordered side = .ok (2 + side) := by
    have hcut : side % sideLimit = side := Nat.mod_eq_of_lt (by rw [sideLimit]; omega)
    rw [bordered, hcut]
    exact if_neg (by rw [sideLimit]; omega)
  rw [area, hbordered hwidth, hbordered hheight]
  exact congrArg Except.ok (if_neg (Nat.not_lt.mpr holds))

/-- The cells of the surface that a block covers, row by row. What lies outside is cut off. -/
def blockPoints (r : Resolution) (b : Block) : List SurfacePoint :=
  (List.range' b.row (min (b.row + b.size) r.height - b.row)).flatMap fun row =>
    (List.range' b.column (min (b.column + b.size) r.width - b.column)).map fun column =>
      ⟨column, row⟩

/-- The cells that a block covers, with its ends worked out in words: the lower one first, the right one
only for a row that is covered. -/
def checkedPoints (r : Resolution) (b : Block) : Except ArithmeticFault (List SurfacePoint) := do
  let _ ← Word.add b.row b.size
  if b.size ≠ 0 ∧ b.row < r.height then
    let _ ← Word.add b.column b.size
  return r.blockPoints b

/-- A block covers the cells between its sides that lie on the surface. -/
theorem mem_blockPoints (r : Resolution) (b : Block) (p : SurfacePoint) :
    p ∈ r.blockPoints b ↔
      (b.column ≤ p.column ∧ p.column < b.column + b.size ∧ p.column < r.width) ∧
      (b.row ≤ p.row ∧ p.row < b.row + b.size ∧ p.row < r.height) := by
  obtain ⟨column, row⟩ := p
  simp only [blockPoints, List.mem_flatMap, List.mem_map, List.mem_range'_1,
    SurfacePoint.mk.injEq]
  constructor
  · rintro ⟨_, hrow, _, hcolumn, rfl, rfl⟩
    omega
  · intro h
    exact ⟨row, by omega, column, by omega, rfl, rfl⟩

end Resolution

end Chip8Console
