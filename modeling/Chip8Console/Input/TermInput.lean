import Chip8Console.Input.KeyTranslator
import Chip8Console.Notice
import Chip8Console.Terminal.Action

/-!
Host events from a terminal. The terminal is put into raw mode and, if it can, made to report key
releases; closing takes both back. How the terminal answers is an argument everywhere.
-/
namespace Chip8Console

inductive TerminalEvent where
  | key (event : KeyEvent)
  /-- an event that is no key's, such as a change of size -/
  | other
deriving DecidableEq, Repr

namespace TerminalEvent

def keys (events : List TerminalEvent) : List KeyEvent :=
  events.filterMap fun
    | .key e => some e
    | .other => none

end TerminalEvent

structure TermInput where
  translator : KeyTranslator
deriving DecidableEq, Repr

namespace TermInput

structure OpeningHost where
  enterRawMode : Except Cause Unit
  /-- whether it says that it can report releases; it may also fail to say -/
  canReport : Except Cause Bool
  /-- the answer to an escape sequence -/
  write : Except Cause Unit

structure Opened where
  attempts : List TerminalAttempt
  result : Except Cause TermInput
  notices : List Notice

def OpeningHost.enhanced (host : OpeningHost) : Bool :=
  match host.canReport with
  | .ok able => able
  | .error _ => false

/-- Open a terminal, holding keys for `hold` refreshes if it cannot report releases. When it refuses,
what was already changed stays changed. -/
def opening (hold : Nat) (host : OpeningHost) : Opened :=
  let raw : TerminalAttempt := ⟨.enterRawMode, host.enterRawMode⟩
  match host.enterRawMode with
  | .error cause => ⟨[raw], .error cause, []⟩
  | .ok () =>
    if host.enhanced then
      let report : TerminalAttempt := ⟨.reportReleases, host.write⟩
      ⟨[raw, report], host.write.map fun () => ⟨.ofHold true hold⟩, []⟩
    else ⟨[raw], .ok ⟨.ofHold false hold⟩, [.holdingKeys hold]⟩

/-- One refresh of reading. The terminal gave these events and then had no more, or failed. A failure
loses what was read, and the releases due now are left for the next refresh. -/
def poll (input : TermInput) (given : List TerminalEvent) (failure : Option Cause) :
    Except ArithmeticFault (Except Cause (List HostEvent) × TermInput) := do
  let (events, translator) ← input.translator.beginRefresh.translateAll (TerminalEvent.keys given)
  match failure with
  | some cause => return (.error cause, ⟨translator⟩)
  | none =>
    let (releases, translator) := translator.madeUpReleases
    return (.ok (events ++ releases), ⟨translator⟩)

structure ClosingHost where
  write : Except Cause Unit
  leaveRawMode : Except Cause Unit

/-- Give the terminal back. A refusal does not stop the rest. -/
def close (input : TermInput) (host : ClosingHost) : List TerminalAttempt × List Notice :=
  let restored : List TerminalAttempt :=
    if input.translator.enhanced then [⟨.stopReportingReleases, host.write⟩] else []
  let left : TerminalAttempt := ⟨.leaveRawMode, host.leaveRawMode⟩
  (restored ++ [left],
    (restored.flatMap TerminalAttempt.refusals).map Notice.keyboardNotRestored
      ++ left.refusals.map Notice.rawModeNotLeft)

end TermInput

inductive ReadFailure where
  /-- asking whether an event is there -/
  | asking (cause : Cause)
  /-- taking an event; it stays in the queue -/
  | taking (cause : Cause)
deriving DecidableEq, Repr

abbrev EventQueue := List TerminalEvent

namespace EventQueue

/-- Read until the queue is empty or reading fails: the events read, the failure, and what is left. -/
def drain (queue : EventQueue) : Option ReadFailure → List TerminalEvent × Option Cause × EventQueue
  | none => (queue, none, [])
  | some (.asking cause) => ([], some cause, queue)
  | some (.taking cause) => if queue.isEmpty then ([], none, []) else ([], some cause, queue)

end EventQueue

def TermInput.pollQueue (input : TermInput) (queue : EventQueue) (failure : Option ReadFailure) :
    Except ArithmeticFault (Except Cause (List HostEvent) × TermInput × EventQueue) := do
  let (given, cause, left) := queue.drain failure
  let (result, input) ← input.poll given cause
  return (result, input, left)

end Chip8Console
