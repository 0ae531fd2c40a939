import Chip8Console.Keypad.Key
import Chip8Console.Text.Hexadecimal

/-!
The calls made on machines, each with the number of the machine it was made on, and what can be read
off a list of them.
-/
namespace Chip8Console

inductive Call where
  | cycle
  | timers
  | load (program : List UInt8)
  | setKey (key : Key) (pressed : Bool)
deriving DecidableEq, Repr

def Call.text (machine : Nat) (call : Call) : String :=
  toString machine ++ ":" ++ match call with
    | cycle => "cycle"
    | timers => "timers"
    | load program => "load:" ++ Text.hexBytes program
    | setKey key pressed =>
      "key:" ++ String.singleton key.legend ++ ":" ++ if pressed then "down" else "up"

abbrev CallLog := List (Nat × Call)

namespace CallLog

def collapseRuns {α : Type} [DecidableEq α] : List α → List α
  | [] => []
  | [a] => [a]
  | a :: b :: rest => if a = b then collapseRuns (b :: rest) else a :: collapseRuns (b :: rest)

/-- The machines in the order of their calls, runs of calls on one machine counted once. -/
def order (log : CallLog) : List Nat := collapseRuns (log.map Prod.fst)

def callsOn (log : CallLog) (machine : Nat) : List Call :=
  (log.filter fun entry => entry.1 == machine).map Prod.snd

def cycles (log : CallLog) (machine : Nat) : Nat := (log.callsOn machine).count .cycle

def timerTicks (log : CallLog) (machine : Nat) : Nat := (log.callsOn machine).count .timers

def keys (log : CallLog) (machine : Nat) : List (Key × Bool) :=
  (log.callsOn machine).filterMap fun
    | .setKey key pressed => some (key, pressed)
    | _ => none

/-- The calls with each run of equal neighbours replaced by one of them and its length. -/
def runs (log : CallLog) : List ((Nat × Call) × Nat) :=
  log.foldr (fun call runs => match runs with
    | (next, count) :: others =>
      if call = next then (next, count + 1) :: others else (call, 1) :: runs
    | [] => [(call, 1)]) []

/-- The calls as text, a run of equal neighbours as one of them followed by its length. -/
def lines (log : CallLog) : List String :=
  log.runs.map fun ((machine, call), count) =>
    if count = 1 then call.text machine else call.text machine ++ "*" ++ toString count

end CallLog

end Chip8Console
