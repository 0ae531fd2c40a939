import Chip8Console.Machine.Interpreter
import Chip8Console.Machine.Scripted

/-!
A machine that is either an interpreter or a scripted one, for consoles that swap between the two.
-/
namespace Chip8Console

/-- An interpreter or a scripted machine. -/
inductive AnyMachine where
  | interpreter (machine : Interpreter)
  | scripted (machine : ScriptedMachine)

namespace AnyMachine

instance : Machine AnyMachine where
  cycle
    | interpreter m, random => let (after, told) := Machine.cycle m random; (interpreter after, told)
    | scripted m, random => let (after, told) := Machine.cycle m random; (scripted after, told)
  pendingRedraw
    | interpreter m => Machine.pendingRedraw m
    | scripted m => Machine.pendingRedraw m
  tickTimers
    | interpreter m => let (beep, after, told) := Machine.tickTimers m; (beep, interpreter after, told)
    | scripted m => let (beep, after, told) := Machine.tickTimers m; (beep, scripted after, told)
  frame
    | interpreter m => Machine.frame m
    | scripted m => Machine.frame m
  load
    | interpreter m, program =>
      (Machine.load m program).map fun (after, told) => (interpreter after, told)
    | scripted m, program => (Machine.load m program).map fun (after, told) => (scripted after, told)
  setKey
    | interpreter m, key, pressed =>
      let (after, told) := Machine.setKey m key pressed; (interpreter after, told)
    | scripted m, key, pressed =>
      let (after, told) := Machine.setKey m key pressed; (scripted after, told)

end AnyMachine

end Chip8Console
