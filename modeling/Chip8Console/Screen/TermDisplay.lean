import Chip8Console.Notice
import Chip8Console.Screen.Picture
import Chip8Console.Terminal.Action

/-!
A screen in a terminal. It collects the points of the blocks painted and shows them, framed, when it is
presented. A drawing that the terminal refuses is drawn again under the next one, and the terminal shows
what it showed before. Opening a screen takes over the terminal's screen and hides the cursor; closing
gives both back.
-/
namespace Chip8Console

structure TermDisplay where
  /-- columns and rows of the terminal that are drawn on -/
  terminal : Area
  surface : Resolution
  /-- the points painted since the surface was last blanked -/
  points : Array SurfacePoint := #[]
  /-- the points of the drawings refused since the terminal last accepted one -/
  refused : Array SurfacePoint := #[]
  title : String := "CHIP-8"
  /-- the picture that the terminal shows -/
  shown : Option Picture := none
  /-- how the terminal answers when it is drawn to -/
  drawing : Except Cause Unit := .ok ()
  /-- the first fault of the arithmetic on the surface, if there was one -/
  fault : Option ArithmeticFault := none

namespace TermDisplay

/-- A blank surface for a picture. A scale of zero counts as one. A terminal with too many cells is drawn
on in part. -/
def ofPicture (terminal : Area) (width height scale : Nat) : Except ArithmeticFault TermDisplay :=
  (Resolution.ofPicture width height (max scale 1)).map fun surface =>
    { terminal := .ofSides terminal.width terminal.height, surface }

/-- How a terminal answers while a screen is opened. -/
structure OpeningHost where
  /-- the answer to the escape sequences -/
  write : Except Cause Unit
  /-- columns and rows, or a refusal to tell them -/
  size : Except Cause Area
  clear : Except Cause Unit

/-- Open a screen. When the terminal refuses, what was already changed stays changed. The surface is
worked out last. -/
def opening (width height scale : Nat) (host : OpeningHost) :
    List TerminalAttempt × Except Cause (Except ArithmeticFault TermDisplay) :=
  ([⟨.enterAlternateScreen, host.write⟩, ⟨.hideCursor, host.write⟩], do
    host.write
    let terminal ← host.size
    host.clear
    return ofPicture terminal width height scale)

/-- Give the terminal's screen back. Both changes are written together, and a refusal is told once. -/
def close (write : Except Cause Unit) : List TerminalAttempt × List Notice :=
  let shown : TerminalAttempt := ⟨.showCursor, write⟩
  ([shown, ⟨.leaveAlternateScreen, write⟩], shown.refusals.map .screenNotRestored)

/-- The picture of the points painted so far, over those of refused drawings. A surface without extent,
or one whose border leaves the range of sides, cannot be drawn. -/
def picture (d : TermDisplay) : Except ArithmeticFault Picture := do
  let area ← d.surface.area
  let _ ← d.surface.xBounds
  let _ ← d.surface.yBounds
  Picture.ofPoints (area.meet d.terminal) d.title d.surface (d.refused ++ d.points)

/-- The screen after a fault. The first one counts. -/
def failed (d : TermDisplay) (fault : ArithmeticFault) : TermDisplay :=
  { d with fault := d.fault.or (some fault) }

def draw (d : TermDisplay) : TermDisplay :=
  match d.picture, d.drawing with
  | .error fault, _ => d.failed fault
  | .ok picture, .ok () => { d with shown := some picture, refused := #[] }
  | .ok _, .error _ => { d with refused := d.refused ++ d.points }

def rows (d : TermDisplay) : List String :=
  match d.shown with
  | some picture => picture.rows d.terminal
  | none => List.replicate d.terminal.height ("".pushn ' ' d.terminal.width)

instance : Display TermDisplay where
  clear d := { d with points := #[] }
  paint d block :=
    match d.surface.checkedPoints block with
    | .ok points => { d with points := d.points ++ points }
    | .error fault => d.failed fault
  present d := (d.drawing, d.draw)
  caption d text := { d with title := "CHIP-8: " ++ text }

end TermDisplay

end Chip8Console
