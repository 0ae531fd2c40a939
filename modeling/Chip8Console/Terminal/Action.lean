import Chip8Console.Error

/-!
What the console does to a terminal besides drawing. Every change has one that undoes it.
-/
namespace Chip8Console

inductive TerminalAction where
  | enterRawMode
  | leaveRawMode
  /-- have key releases reported -/
  | reportReleases
  | stopReportingReleases
  | enterAlternateScreen
  | leaveAlternateScreen
  | hideCursor
  | showCursor
deriving DecidableEq, Repr

def escapeChar : Char := Char.ofNat 0x1B

namespace TerminalAction

def sequence? : TerminalAction → Option String
  | enterRawMode | leaveRawMode => none
  | reportReleases => some (escapeChar.toString ++ "[>2u")
  | stopReportingReleases => some (escapeChar.toString ++ "[<1u")
  | enterAlternateScreen => some (escapeChar.toString ++ "[?1049h")
  | leaveAlternateScreen => some (escapeChar.toString ++ "[?1049l")
  | hideCursor => some (escapeChar.toString ++ "[?25l")
  | showCursor => some (escapeChar.toString ++ "[?25h")

def undo : TerminalAction → TerminalAction
  | enterRawMode => leaveRawMode
  | leaveRawMode => enterRawMode
  | reportReleases => stopReportingReleases
  | stopReportingReleases => reportReleases
  | enterAlternateScreen => leaveAlternateScreen
  | leaveAlternateScreen => enterAlternateScreen
  | hideCursor => showCursor
  | showCursor => hideCursor

end TerminalAction

/-- A change that was tried. A refused one may still have been made in part. -/
structure TerminalAttempt where
  action : TerminalAction
  outcome : Except Cause Unit

namespace TerminalAttempt

def succeeded (a : TerminalAttempt) : Bool :=
  match a.outcome with
  | .ok () => true
  | .error _ => false

def refusals (a : TerminalAttempt) : List Cause :=
  match a.outcome with
  | .ok () => []
  | .error cause => [cause]

end TerminalAttempt

end Chip8Console
