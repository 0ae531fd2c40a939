import Chip8Console.Error

/-!
The thread that turns a speaker off. It is sent the moments at which tones end. A moment that arrives
while another is held replaces it, so that a burst of tones is silenced once, after the last of them.
When no more can arrive, what is still held is silenced at once and the thread ends.
-/
namespace Chip8Console

abbrev Moment := Nat

inductive SpeakerCommand where
  | tone (frequency : UInt16)
  | silence
deriving DecidableEq, Repr

namespace SpeakerCommand

def frequency : SpeakerCommand → UInt16
  | tone frequency => frequency
  | silence => 0

end SpeakerCommand

/-- What the stopping thread is about. -/
inductive Silencer.Phase where
  /-- waiting for a moment to arrive, or for the one held to come -/
  | waiting
  /-- done waiting for the moment held and about to turn the speaker off, `last` if nothing more can
  arrive -/
  | silencing (last : Bool)
  | ended
deriving DecidableEq, Repr

/-- The stopping thread with the channel that leads to it. -/
structure Silencer where
  /-- sent and not received yet, oldest first -/
  queue : List Moment := []
  /-- set once nothing more will be sent -/
  closed : Bool := false
  /-- received and not acted on yet -/
  held : Option Moment := none
  phase : Silencer.Phase := .waiting
deriving DecidableEq, Repr

namespace Silencer

inductive Wake where
  /-- a moment arrived -/
  | received
  /-- the moment held has come -/
  | timedOut
  /-- nothing is queued and nothing more will be sent -/
  | channelClosed
deriving DecidableEq, Repr

def send (s : Silencer) (stop : Moment) : Silencer := { s with queue := s.queue ++ [stop] }

def close (s : Silencer) : Silencer := { s with closed := true }

/-- Receive the oldest moment in the queue. It takes the place of the one held. -/
def receive? (s : Silencer) : Option Silencer :=
  match s.phase, s.queue with
  | .waiting, stop :: rest => some { s with queue := rest, held := some stop }
  | _, _ => none

/-- Stop waiting for the moment held, which is not done before that moment. What was sent since the
thread last looked stays in the queue. -/
def timeOut? (s : Silencer) (now : Moment) : Option Silencer :=
  if s.phase = .waiting ∧ s.held.any (· ≤ now) then some { s with phase := .silencing false } else none

/-- Take note that the channel is closed, which shows only once it is empty. -/
def noteClosed? (s : Silencer) : Option Silencer :=
  if s.phase = .waiting ∧ s.queue = [] ∧ s.closed then
    some { s with phase := if s.held.isSome then .silencing true else .ended }
  else none

def wake? (s : Silencer) (now : Moment) : Wake → Option Silencer
  | .received => s.receive?
  | .timedOut => s.timeOut? now
  | .channelClosed => s.noteClosed?

def silence? (s : Silencer) : Option Silencer :=
  match s.phase with
  | .silencing last => some { s with held := none, phase := if last then .ended else .waiting }
  | _ => none

/-- The thread in a wait once it has received all that was queued. -/
def receiveAll (s : Silencer) : Silencer :=
  { s with queue := [], held := s.queue.getLast?.or s.held }

/-- All that the thread does in a wait before it has to wait for time to pass or for something to be
sent. -/
def settle (s : Silencer) (now : Moment) : List SpeakerCommand × Silencer :=
  let s := s.receiveAll
  let woken := ((s.wake? now .channelClosed).or (s.wake? now .timedOut)).getD s
  match woken.silence? with
  | some after => ([.silence], after)
  | none => ([], woken)

variable {s after : Silencer}

/-- The thread receives only while it waits, and then the oldest moment that is queued. -/
theorem receive?_eq_some_iff : s.receive? = some after ↔ s.phase = .waiting ∧
    ∃ stop rest, s.queue = stop :: rest ∧ { s with queue := rest, held := some stop } = after := by
  unfold receive?
  constructor
  · intro h
    split at h
    · next stop rest waits queued =>
      cases h
      exact ⟨waits, stop, rest, queued, rfl⟩
    · cases h
  · rintro ⟨waits, stop, rest, queued, rfl⟩
    rw [waits, queued]

/-- A wait ends by itself only once the moment held has come. -/
theorem timeOut?_eq_some_iff {now : Moment} : s.timeOut? now = some after ↔ s.phase = .waiting ∧
    (∃ stop, s.held = some stop ∧ stop ≤ now) ∧ { s with phase := .silencing false } = after := by
  simp only [timeOut?, Option.ite_none_right_eq_some, Option.any_eq_true, decide_eq_true_eq,
    Option.some.injEq, and_assoc]

/-- The thread notes that the channel is closed only once the queue is empty. -/
theorem noteClosed?_eq_some_iff : s.noteClosed? = some after ↔ s.phase = .waiting ∧ s.queue = [] ∧
    s.closed = true ∧ { s with phase := if s.held.isSome then .silencing true else .ended } = after := by
  simp only [noteClosed?, Option.ite_none_right_eq_some, Option.some.injEq, and_assoc]

/-- The thread silences the speaker only when it is about to, and holds nothing after that. -/
theorem silence?_eq_some_iff : s.silence? = some after ↔ ∃ last, s.phase = .silencing last ∧
    { s with held := none, phase := if last then .ended else .waiting } = after := by
  unfold silence?
  constructor
  · intro h
    split at h
    · next last about =>
      cases h
      exact ⟨last, about, rfl⟩
    · cases h
  · rintro ⟨last, about, rfl⟩
    rw [about]

/-- Receiving one moment first makes no difference to receiving all. -/
theorem receiveAll_receive? (s after : Silencer) (h : s.receive? = some after) :
    after.receiveAll = s.receiveAll := by
  obtain ⟨-, stop, rest, queued, rfl⟩ := receive?_eq_some_iff.mp h
  simp only [receiveAll, queued, List.getLast?_cons]
  cases rest.getLast? <;> rfl

end Silencer

end Chip8Console
