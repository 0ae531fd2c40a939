import Chip8Console.Journal
import Chip8Console.Machine.Frame

/-!
What the console may ask of a machine. Each request touches nothing but the machine's own state and
tells the journal what it did.
-/
namespace Chip8Console

class Machine (M : Type) where
  /-- Execute exactly one instruction. The byte is what a random instruction draws. -/
  cycle : M → UInt8 → M × Journal
  /-- Whether the picture changed; the machine itself decides when to forget that. -/
  pendingRedraw : M → Bool
  /-- Count the timers down by one unit, telling whether a tone should sound. -/
  tickTimers : M → Bool × M × Journal
  /-- The current picture. -/
  frame : M → Frame
  /-- Start afresh with a program installed, or refuse it and stay as it was. -/
  load : M → List UInt8 → Except ConsoleError (M × Journal)
  /-- Put one key line down or release it. -/
  setKey : M → Key → Bool → M × Journal

namespace Machine

structure Batch (M : Type) where
  machine : M
  /-- whether the picture was pending after any of the cycles -/
  redraw : Bool
  journal : Journal

def runBatch {M : Type} [Machine M] (machine : M) : List UInt8 → Batch M
  | [] => ⟨machine, false, []⟩
  | byte :: bytes =>
    let (after, told) := cycle machine byte
    let rest := runBatch after bytes
    ⟨rest.machine, pendingRedraw after || rest.redraw, told ++ rest.journal⟩

end Machine

end Chip8Console
