import Chip8Console.Machine.Basic
import Chip8Console.Screen.Basic
import Chip8Console.Sound.Tone

/-!
One tick per refresh of the screen: a fixed batch of cycles, one step of the timers, a tone if they
ask for it, and a repaint if any cycle of the batch asked for it. A new scheduler also repaints on its
first tick, so that a session replaces what the one before it left on the screen.

The two counters, of ticks and of cycles, have no bound here. In the program each is kept in a word of 64
bits, and what is said of them is said of runs of fewer than `Word.limit` cycles; at the usual ten cycles a
tick and sixty ticks a second a longer run takes some nine hundred million years.
-/
namespace Chip8Console

/-- For each cycle of a tick, the byte that a random instruction draws in it. -/
abbrev Dice := Nat → UInt8

namespace Dice

private def scramble (z : UInt64) : UInt64 :=
  let z := (z ^^^ (z >>> 30)) * 0xBF58476D1CE4E5B9
  let z := (z ^^^ (z >>> 27)) * 0x94D049BB133111EB
  z ^^^ (z >>> 31)

/-- The bytes that belong to a seed. Each is computed by itself, by a counter stepped by an odd constant and
then scrambled, so that the bytes look unrelated. -/
def ofSeed (seed : UInt64) : Dice := fun place =>
  (scramble (seed + UInt64.ofNat (place + 1) * 0x9E3779B97F4A7C15)).toUInt8

def first (dice : Dice) (count : Nat) : List UInt8 := (List.range count).map dice

def skip (dice : Dice) (count : Nat) : Dice := fun place => dice (count + place)

end Dice

/-- What is fixed for the life of a session. -/
structure SchedulerSettings where
  /-- zero counts as one -/
  cyclesPerTick : Nat := 10
  /-- side of the block painted for a pixel; zero counts as one -/
  scale : Nat := 1
  tone : Tone := {}
deriving DecidableEq, Repr

structure TickOutcome where
  redrawn : Bool
  beeped : Bool
deriving DecidableEq, Repr

structure Sinks (D S : Type) where
  display : D
  sound : S

structure Scheduler where
  cyclesPerTick : Nat
  scale : Nat
  tone : Tone
  /-- ticks run so far -/
  ticks : Nat
  /-- cycles run so far -/
  cycles : Nat
  /-- set until the first tick has taken note of it -/
  repaint : Bool
deriving DecidableEq, Repr

namespace Scheduler

def ofSettings (settings : SchedulerSettings) : Scheduler where
  cyclesPerTick := max settings.cyclesPerTick 1
  scale := max settings.scale 1
  tone := settings.tone
  ticks := 0
  cycles := 0
  repaint := true

def counted (s : Scheduler) : Scheduler :=
  { s with ticks := s.ticks + 1, cycles := s.cycles + s.cyclesPerTick, repaint := false }

structure Ticked (M D S : Type) where
  scheduler : Scheduler
  machine : M
  sinks : Sinks D S
  result : Except ConsoleError TickOutcome
  journal : Journal

/-- Run one tick. A screen that refuses the repaint fails the tick after everything else of it is
done, and the repaint is not tried again. At a scale that takes the blocks out of range the repaint is
a fault. -/
def tick {M D S : Type} [Machine M] [Display D] [Sound S]
    (s : Scheduler) (machine : M) (sinks : Sinks D S) (dice : Dice) :
    Except ArithmeticFault (Ticked M D S) := do
  let batch := Machine.runBatch machine (dice.first s.cyclesPerTick)
  let redraw := s.repaint || batch.redraw
  let (beeped, machine, timed) := Machine.tickTimers batch.machine
  let (sound, sounded) := if beeped then Sound.pulse sinks.sound s.tone else (sinks.sound, [])
  let (shown, display) ←
    if redraw then Display.showFrame sinks.display (Machine.frame machine) s.scale
    else .ok (.ok (), sinks.display)
  return {
    scheduler := s.counted
    machine
    sinks := { display, sound }
    result := match shown with
      | .ok () => .ok { redrawn := redraw, beeped }
      | .error cause => .error (.terminal cause)
    journal := batch.journal ++ timed ++ Journal.ofNotices sounded }

end Scheduler

end Chip8Console
