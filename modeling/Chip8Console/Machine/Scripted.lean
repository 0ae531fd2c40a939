import Chip8Console.Machine.Basic

/-!
A machine that follows a script. It runs no program: it tells the journal of every call, lights the
pixel that counts its cycles, and wants repaints and tones when its script says so.
-/
namespace Chip8Console

/-- A machine that does nothing but keep the journal. -/
structure ScriptedMachine where
  /-- the number under which it keeps the journal -/
  id : Nat
  /-- the cycles, counted from one, after which the picture is pending -/
  redrawCycles : List Nat := []
  /-- the timer ticks, counted from one, on which a tone should sound -/
  beepTicks : List Nat := []
  /-- whether every program is refused as too large -/
  refusesPrograms : Bool := false
  /-- cycles run so far -/
  cycles : Nat := 0
  /-- timer ticks so far -/
  timerTicks : Nat := 0
deriving Repr

namespace ScriptedMachine

/-- Only the pixel that counts the cycles is lit, starting over past the last one. -/
def frame (m : ScriptedMachine) : Frame :=
  match m.cycles with
  | 0 => Frame.blank
  | n + 1 => Frame.single ⟨n % Frame.size, Nat.mod_lt _ (by decide)⟩

def pendingRedraw (m : ScriptedMachine) : Bool :=
  m.cycles != 0 && m.redrawCycles.contains m.cycles

instance : Machine ScriptedMachine where
  cycle m _ := ({ m with cycles := m.cycles + 1 }, [.call m.id .cycle])
  pendingRedraw := pendingRedraw
  tickTimers m :=
    (m.beepTicks.contains (m.timerTicks + 1),
      { m with timerTicks := m.timerTicks + 1 }, [.call m.id .timers])
  frame := frame
  load m program :=
    if m.refusesPrograms then .error (.romTooLarge program.length 0)
    else .ok (m, [.call m.id (.load program)])
  setKey m key pressed := (m, [.call m.id (.setKey key pressed)])

end ScriptedMachine

end Chip8Console
