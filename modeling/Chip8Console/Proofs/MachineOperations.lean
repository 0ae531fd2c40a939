import Chip8Console.Machine.Interpreter

/-!
Runs of the interpreted machine: whatever it may be asked for, in any order and any number of times.
-/
namespace Chip8Console.Interpreter

inductive Operation where
  | load (program : List UInt8)
  /-- one cycle, with the byte that a random instruction draws in it -/
  | cycle (random : UInt8)
  | tickTimers
  | setKey (key : Key) (pressed : Bool)
deriving Repr

inductive Answer where
  | loaded (result : Except ConsoleError Unit)
  | cycled (told : Option Notice)
  | timed (beep : Bool)
  | keyed

/-- Carry out one operation. A program that is refused leaves the machine as it was. -/
def perform (s : Interpreter) : Operation → Interpreter × Answer
  | .load program =>
    match load program with
    | .error e => (s, .loaded (.error e))
    | .ok loaded => (loaded, .loaded (.ok ()))
  | .cycle random => ((s.cycle random).1, .cycled (s.cycle random).2)
  | .tickTimers => (s.tickTimers.2, .timed s.tickTimers.1)
  | .setKey key pressed => (s.setKey key pressed, .keyed)

def performAll (s : Interpreter) : List Operation → Interpreter × List Answer
  | [] => (s, [])
  | op :: rest =>
    let (last, answers) := (s.perform op).1.performAll rest
    (last, (s.perform op).2 :: answers)

/-- Whatever every operation preserves holds after every run. -/
theorem performAll_invariant {P : Interpreter → Prop} (keeps : ∀ s op, P s → P (s.perform op).1)
    {s : Interpreter} (h : P s) (ops : List Operation) : P (s.performAll ops).1 := by
  induction ops generalizing s with
  | nil => exact h
  | cons op rest ih => exact ih (keeps s op h)

/-- A program is taken exactly if it fits, and then decides the whole state. -/
theorem load_eq_ok_iff {program : List UInt8} {loaded : Interpreter} :
    load program = .ok loaded ↔ program.length ≤ Memory.maxProgram ∧
      loaded = { initial with memory := Memory.initial.writeSlice Memory.programStart program } := by
  unfold load Memory.load
  split
  · next large => simp [Except.map, Nat.not_le.mpr large]
  · next fits => simp [Except.map, Nat.not_lt.mp fits, eq_comm]

end Chip8Console.Interpreter
