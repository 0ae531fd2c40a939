import Chip8Console.Sound.Silencer
import Chip8Console.Sound.Tone

/-!
Tones on a speaker. The speaker knows no volume, so every gain above zero is full volume. A pulse sets
the speaker and returns; the stopping thread turns it off. A speaker that refuses a tone is given up on.
The calling thread and the stopping thread are interleaved in small moves.
-/
namespace Chip8Console

/-- A command that was given, with the speaker's answer. -/
structure SpeakerAttempt where
  command : SpeakerCommand
  outcome : Except Cause Unit

structure Beeper where
  /-- the answer to the k-th command, counted from zero -/
  answers : Nat → SpeakerCommand → Except Cause Unit := fun _ _ => .ok ()
  /-- the answer to starting the stopping thread -/
  thread : Except Cause Unit := .ok ()
  /-- whether the stopping thread was started, which the first tone does -/
  started : Bool := false
  /-- whether the speaker was given up on -/
  failed : Bool := false
  /-- how long the tone lasts whose end the pulse under way has yet to send -/
  owed : Option Nat := none
  silencer : Silencer := {}
  now : Moment := 0
  /-- the commands given so far, oldest first -/
  attempts : List SpeakerAttempt := []

namespace Beeper

def command (b : Beeper) (c : SpeakerCommand) : Except Cause Unit × Beeper :=
  let outcome := b.answers b.attempts.length c
  (outcome, { b with attempts := b.attempts ++ [⟨c, outcome⟩] })

def start (b : Beeper) : Except Cause Beeper :=
  if b.started then .ok b else b.thread.map fun () => { b with started := true }

/-- The first half of a pulse: set the speaker. A pulse without volume leaves it alone, and so does any
pulse to a speaker that was given up on. -/
def beginPulse (b : Beeper) (tone : Tone) : Beeper × List Notice :=
  if tone.gain.isSilent || b.failed then (b, [])
  else
    match b.start with
    | .error cause => ({ b with failed := true }, [.beepThreadNotStarted cause])
    | .ok b =>
      match b.command (.tone tone.frequency) with
      | (.ok (), b) => ({ b with owed := some tone.milliseconds }, [])
      | (.error cause, b) => ({ b with failed := true }, [.beepFailed cause])

/-- The second half of a pulse: send the moment at which its tone ends. -/
def sendStop (b : Beeper) : Beeper :=
  match b.owed with
  | none => b
  | some length => { b with owed := none, silencer := b.silencer.send (b.now + length) }

def pulse (b : Beeper) (tone : Tone) : Beeper × List Notice :=
  let (b, told) := b.beginPulse tone
  (b.sendStop, told)

def close (b : Beeper) : Beeper := { b with silencer := b.silencer.close }

def silence (b : Beeper) : Beeper × List Notice :=
  match b.command .silence with
  | (.ok (), b) => (b, [])
  | (.error cause, b) => (b, [.speakerNotSilenced cause])

/-- Let the stopping thread do all that it can at this moment. -/
def settle (b : Beeper) : Beeper × List Notice :=
  match b.silencer.settle b.now with
  | ([], silencer) => ({ b with silencer }, [])
  | (_ :: _, silencer) => { b with silencer }.silence

inductive Move where
  | beginPulse (tone : Tone)
  | sendStop
  | close
  /-- a wait of the stopping thread ends -/
  | wake (w : Silencer.Wake)
  /-- the stopping thread turns the speaker off -/
  | silence
  /-- time goes by -/
  | pass (milliseconds : Nat)
deriving DecidableEq, Repr

/-- One move, if it can come next. The calling thread finishes a pulse before it does anything else, and
does nothing after it has closed. The stopping thread moves once it was started. -/
def step? (b : Beeper) : Move → Option (Beeper × List Notice)
  | .beginPulse tone =>
    if b.owed.isNone && !b.silencer.closed then some (b.beginPulse tone) else none
  | .sendStop => if b.owed.isSome then some (b.sendStop, []) else none
  | .close => if b.owed.isNone && !b.silencer.closed then some (b.close, []) else none
  | .wake w =>
    if b.started then (b.silencer.wake? b.now w).map fun silencer => ({ b with silencer }, []) else none
  | .silence =>
    if b.started then b.silencer.silence?.map fun silencer => { b with silencer }.silence else none
  | .pass milliseconds => some ({ b with now := b.now + milliseconds }, [])

instance : Sound Beeper where
  pulse := pulse

end Beeper

end Chip8Console
