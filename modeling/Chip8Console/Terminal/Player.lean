import Chip8Console.CommandLine.Configuration
import Chip8Console.Environment
import Chip8Console.Input.TermInput
import Chip8Console.Machine.Interpreter
import Chip8Console.Screen.TermDisplay

/-!
The console at a terminal: the interpreter, a screen of character cells and keys that are held for a
while after they were typed. What the terminal is sent and what it answers stay outside.
-/
namespace Chip8Console

structure Player where
  environment : Environment Interpreter TermDisplay RecordingSound
  input : TermInput
  /-- what happened so far -/
  journal : Journal := []

namespace Player

/-- The image to start with: the one that was asked for, or else the first of the catalog. -/
def firstRequest (c : Configuration) (catalog : List String) : Option RomRequest :=
  c.initial.or (catalog.head?.map .named)

def ofConfiguration (c : Configuration) (terminal : Area)
    (listed : Except ConsoleError (List String)) : Except ArithmeticFault Player := do
  let display ← TermDisplay.ofPicture terminal Frame.width Frame.height c.scheduler.scale
  let (catalog, untold) := match listed with
    | .ok names => (names, [])
    | .error e => ([], [Notice.noCatalog e])
  let environment : Environment Interpreter TermDisplay RecordingSound :=
    { sessions := { factory := fun _ => .initial, settings := c.scheduler }
      catalog
      sinks := ⟨display, {}⟩ }
  let input : TermInput := ⟨.ofHold false c.keyHold⟩
  match firstRequest c catalog with
  | none => return { environment, input, journal := Journal.ofNotices (untold ++ [.nothingToRun]) }
  | some request =>
    let (environment, told) := environment.select request
    return { environment, input, journal := Journal.ofNotices untold ++ told }

def display (p : Player) : TermDisplay := p.environment.sinks.display

/-- One refresh of the screen, with what was typed since the last one. Every request that waits is
answered in it. -/
def refresh (p : Player) (answer : RomRequest → Fetched) (typed : List TerminalEvent) (dice : Dice) :
    Except ArithmeticFault (Except ConsoleError Flow × Player) := do
  let (polled, input) ← p.input.poll typed none
  let answered := p.environment.loader.waiting.length
  let stepped ← p.environment.step answer { polled, answered, dice }
  let after : Player :=
    { environment := stepped.environment, input, journal := p.journal ++ stepped.journal }
  match after.display.fault with
  | some fault => .error fault
  | none => return (stepped.result, after)

def teardown (p : Player) : Player :=
  let (environment, told) := p.environment.teardown
  { p with environment, journal := p.journal ++ told }

def rows (p : Player) : List String := p.display.rows

def tones (p : Player) : Nat := p.environment.sinks.sound.pulses.length

def warnings (p : Player) : List String :=
  (p.journal.notices.filter fun n => n.level = .warn ∨ n.level = .error).map Notice.line

end Player

def RefreshRate.milliseconds (r : RefreshRate) : Nat :=
  let f := Number.double
  f.floor (f.div (f.ofNat 1000) r.bits)

end Chip8Console
