import Chip8Console.Error
import Chip8Console.Text.Hexadecimal

/-!
What the console tells its operator while it runs. A notice says what happened; its level and its
wording follow from that.
-/
namespace Chip8Console

inductive Notice.Level where
  | error
  | warn
  | info
  | debug
deriving DecidableEq, Repr

inductive Notice where
  /-- a return at address `origin` found no call to return from -/
  | emptyStack (origin : UInt16)
  /-- a call at address `origin` found the call stack full -/
  | stackOverflow (origin : UInt16)
  /-- `word`, at address `origin`, stands for no instruction -/
  | unknownInstruction (word origin : UInt16)
  /-- a finished load was no longer wanted -/
  | supersededLoad (ticket : Nat)
  /-- a session made way for the next one -/
  | retiring (rom : String) (ticks cycles : Nat)
  /-- a session became the running one -/
  | running (rom : String) (bytes : Nat)
  /-- what the image's author says of it -/
  | description (text : String)
  /-- a tick arrived for a session that is gone -/
  | staleTick (token : Nat)
  /-- a session ended without a successor -/
  | stopped (rom : String) (ticks : Nat)
  /-- an image was selected -/
  | loading (label : String)
  /-- a step failed and the console carries on -/
  | failed (error : ConsoleError)
  /-- the screen could not show an error -/
  | errorNotShown (cause : Cause)
  /-- a note beside an image could not be read -/
  | unreadable (path : String) (cause : Cause)
  /-- releases are made up after this many refreshes -/
  | holdingKeys (refreshes : Nat)
  | keyboardNotRestored (cause : Cause)
  | rawModeNotLeft (cause : Cause)
  | screenNotRestored (cause : Cause)
  | beepFailed (cause : Cause)
  /-- the thread that turns the speaker off could not be started -/
  | beepThreadNotStarted (cause : Cause)
  | speakerNotSilenced (cause : Cause)
  /-- the directory of images could not be listed -/
  | noCatalog (error : ConsoleError)
  /-- neither the user nor the catalog names an image to start with -/
  | nothingToRun
deriving DecidableEq, Repr

namespace Notice

def level : Notice → Level
  | failed _ => .error
  | running .. | description _ | stopped .. | loading _ => .info
  | supersededLoad _ | retiring .. | staleTick _ | holdingKeys _ => .debug
  | _ => .warn

private def address (a : UInt16) : String := "0x" ++ Text.hexPadded 3 a.toNat

def text : Notice → String
  | emptyStack origin => "return with an empty call stack at " ++ address origin
  | stackOverflow origin => "call stack overflow at " ++ address origin
  | unknownInstruction word origin =>
    "skipping unknown instruction 0x" ++ Text.hexPadded 4 word.toNat ++ " at " ++ address origin
  | supersededLoad ticket => "discarding superseded load LoadTicket(" ++ toString ticket ++ ")"
  | retiring rom ticks cycles =>
    "retiring " ++ rom ++ " after " ++ toString ticks ++ " ticks (" ++ toString cycles ++ " cycles)"
  | running rom bytes => "running " ++ rom ++ " (" ++ toString bytes ++ " bytes)"
  | description text => text
  | staleTick token => "discarding stale tick for SessionToken(" ++ toString token ++ ")"
  | stopped rom ticks => "stopped " ++ rom ++ " after " ++ toString ticks ++ " ticks"
  | loading label => "loading " ++ label
  | failed error => error.message
  | errorNotShown cause => "couldn't show error: " ++ cause.message
  | unreadable path cause => "couldn't read " ++ path ++ ": " ++ cause.message
  | holdingKeys refreshes =>
    "terminal can't report key releases; holding keys for " ++ toString refreshes ++ " refreshes"
  | keyboardNotRestored cause => "couldn't restore keyboard mode: " ++ cause.message
  | rawModeNotLeft cause => "couldn't leave raw mode: " ++ cause.message
  | screenNotRestored cause => "couldn't restore the terminal: " ++ cause.message
  | beepFailed cause => "beep failed, carrying on without sound: " ++ cause.message
  | beepThreadNotStarted cause =>
    "couldn't start the beep thread, carrying on without sound: " ++ cause.message
  | speakerNotSilenced cause => "couldn't silence the speaker: " ++ cause.message
  | noCatalog error => "no ROM catalog: " ++ error.message
  | nothingToRun => "nothing to run; pass --rom or --file, or press F1-F12"

end Notice

def Notice.Level.name : Level → String
  | error => "ERROR"
  | warn => "WARN"
  | info => "INFO"
  | debug => "DEBUG"

def Notice.line (n : Notice) : String := n.level.name ++ " " ++ n.text

end Chip8Console
