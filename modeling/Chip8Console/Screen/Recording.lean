import Chip8Console.Screen.Basic

/-!
A screen that remembers what it was asked to do.
-/
namespace Chip8Console

structure RecordingDisplay where
  /-- how often the surface was blanked -/
  clears : Nat := 0
  /-- how often it was to be presented, refused presents included -/
  presents : Nat := 0
  /-- the blocks painted since the surface was last blanked -/
  blocks : Array Block := #[]
  caption : String := ""
  /-- which presents, counted from one, are refused, and why -/
  refusal : Nat → Option Cause := fun _ => none

namespace RecordingDisplay

instance : Display RecordingDisplay where
  clear d := { d with clears := d.clears + 1, blocks := #[] }
  paint d block := { d with blocks := d.blocks.push block }
  present d :=
    let outcome := match d.refusal (d.presents + 1) with
      | some cause => .error cause
      | none => .ok ()
    (outcome, { d with presents := d.presents + 1 })
  caption d text := { d with caption := text }

end RecordingDisplay

end Chip8Console
