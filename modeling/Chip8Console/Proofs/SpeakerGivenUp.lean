import Chip8Console.Proofs.GainValue
import Chip8Console.Proofs.SpeakerMoves

/-!
A speaker that refuses a tone is given up on. Whole pulses follow each other here, and the stopping thread
and the clock go on between them and during them.
-/
namespace Chip8Console

def SpeakerAttempt.warning? (a : SpeakerAttempt) : Option Notice :=
  match a.command, a.outcome with
  | _, .ok () => none
  | .tone _, .error cause => some (.beepFailed cause)
  | .silence, .error cause => some (.speakerNotSilenced cause)

def SpeakerAttempt.isRefusedSilence (a : SpeakerAttempt) : Bool :=
  match a.command, a.outcome with
  | .silence, .error _ => true
  | _, _ => false

def SpeakerCommand.isTone : SpeakerCommand → Bool
  | tone _ => true
  | silence => false

namespace Beeper

def Move.isAside : Move → Bool
  | .wake _ | .silence | .pass _ => true
  | _ => false

structure PulseCall where
  tone : Tone
  /-- what it told the speaker -/
  commands : List SpeakerAttempt
  /-- the moment at its end -/
  ended : Moment
  /-- what it sent to the stopping thread -/
  stops : List Moment
  told : List Notice

namespace PulseCall

/-- What is seen of a pulse: the speaker before it, once it was set to the tone, and when it ends. -/
def between (before begun played : Beeper) (tone : Tone) (told : List Notice) : PulseCall where
  tone
  commands := begun.attempts.drop before.attempts.length
  ended := played.now
  stops := played.sendStop.silencer.queue.drop played.silencer.queue.length
  told

/-- The speaker was set to the tone, and the end of it was sent. -/
def Sounded (call : PulseCall) : Prop :=
  call.commands = [⟨.tone call.tone.frequency, .ok ()⟩] ∧
    call.stops = [call.ended + call.tone.milliseconds] ∧ call.told = []

def Refused (call : PulseCall) : Prop :=
  ∃ cause, call.commands = [⟨.tone call.tone.frequency, .error cause⟩] ∧ call.stops = [] ∧
    call.told = [.beepFailed cause]

def Ignored (call : PulseCall) : Prop := call.commands = [] ∧ call.stops = [] ∧ call.told = []

def isLoud (call : PulseCall) : Bool := decide (0 < call.tone.gain.value)

end PulseCall

/-- Pulses one after the other, with what becomes of each and all that is told. -/
inductive Calls (b₀ : Beeper) : Beeper → List PulseCall → List Notice → Prop
  | start : Calls b₀ b₀ [] []
  | aside {b b' : Beeper} {made : List PulseCall} {log told : List Notice} {move : Move}
      (calls : Calls b₀ b made log) (other : move.isAside = true) (h : b.step? move = some (b', told)) :
      Calls b₀ b' made (log ++ told)
  | pulse {b begun played : Beeper} {made : List PulseCall} {log told seen : List Notice} {tone : Tone}
      {moves : List Move} (calls : Calls b₀ b made log)
      (h : b.step? (.beginPulse tone) = some (begun, told))
      (meanwhile : Run begun played moves seen) (others : ∀ move ∈ moves, move.isAside = true) :
      Calls b₀ played.sendStop (made ++ [.between b begun played tone told]) (log ++ told ++ seen)

/-- What pulses with volume come to: they sound until one is refused, and none after that does anything. -/
inductive Course : Bool → List PulseCall → Prop
  | going {calls : List PulseCall} (sounded : ∀ call ∈ calls, call.Sounded) : Course false calls
  | givenUp {before after : List PulseCall} {call : PulseCall}
      (sounded : ∀ call ∈ before, call.Sounded) (refused : call.Refused)
      (ignored : ∀ call ∈ after, call.Ignored) : Course true (before ++ call :: after)

variable {b₀ b b' : Beeper} {move : Move} {moves : List Move} {told seen : List Notice}
  {made : List PulseCall} {log : List Notice} {tone : Tone}

/-- What the stopping thread and the clock can do: receive what was sent, oldest first, and turn the
speaker off. -/
structure Beside (b b' : Beeper) (told : List Notice) : Prop where
  thread : b'.thread = b.thread
  failed : b'.failed = b.failed
  owed : b'.owed = b.owed
  received : b'.silencer.queue <:+ b.silencer.queue
  attempts : ∃ silences, b'.attempts = b.attempts ++ silences ∧
    (∀ a ∈ silences, a.command = .silence) ∧ told = silences.filterMap SpeakerAttempt.warning?

private theorem Beside.refl (b : Beeper) : Beside b b [] :=
  ⟨rfl, rfl, rfl, List.suffix_rfl, [], (List.append_nil _).symm, nofun, rfl⟩

private theorem Beside.trans {b'' : Beeper} (first : Beside b b' told) (second : Beside b' b'' seen) :
    Beside b b'' (told ++ seen) := by
  obtain ⟨silences, given, off, rfl⟩ := first.attempts
  obtain ⟨more, given', off', rfl⟩ := second.attempts
  refine ⟨second.thread.trans first.thread, second.failed.trans first.failed,
    second.owed.trans first.owed, second.received.trans first.received, silences ++ more, ?_, ?_, ?_⟩
  · rw [given', given, List.append_assoc]
  · exact List.forall_mem_append.mpr ⟨off, off'⟩
  · rw [List.filterMap_append]

private theorem beside_silence (b : Beeper) : Beside b b.silence.1 b.silence.2 := by
  unfold silence command
  cases outcome : b.answers b.attempts.length .silence with
  | ok =>
    exact ⟨rfl, rfl, rfl, List.suffix_rfl, [⟨.silence, .ok ()⟩], rfl, by simp, rfl⟩
  | error cause =>
    exact ⟨rfl, rfl, rfl, List.suffix_rfl, [⟨.silence, .error cause⟩], rfl, by simp, rfl⟩

private theorem beside_of_step? (h : b.step? move = some (b', told)) (other : move.isAside = true) :
    Beside b b' told := by
  have same {b' : Beeper} (thread : b'.thread = b.thread) (failed : b'.failed = b.failed)
      (owed : b'.owed = b.owed) (attempts : b'.attempts = b.attempts)
      (received : b'.silencer.queue <:+ b.silencer.queue) : Beside b b' [] :=
    ⟨thread, failed, owed, received, [], by rw [attempts, List.append_nil], nofun, rfl⟩
  cases move with
  | beginPulse | sendStop | close => cases other
  | silence =>
    simp only [step?, Option.ite_none_right_eq_some, Option.map_eq_some_iff] at h
    obtain ⟨-, silencer, hsilence, after⟩ := h
    have queue : silencer.queue = b.silencer.queue := by
      obtain ⟨last, about, rfl⟩ := Silencer.silence?_eq_some_iff.mp hsilence
      rfl
    have turned := beside_silence { b with silencer }
    rw [after] at turned
    exact { turned with received := queue ▸ turned.received }
  | wake w =>
    cases moved_of_step? h with
    | received stop rest started waits queued =>
      exact same rfl rfl rfl rfl (queued ▸ List.suffix_cons stop rest)
    | timedOut | noted => exact same rfl rfl rfl rfl List.suffix_rfl
  | pass milliseconds =>
    cases h
    exact same rfl rfl rfl rfl List.suffix_rfl

private theorem Run.beside (run : Run b b' moves seen) (others : ∀ move ∈ moves, move.isAside = true) :
    Beside b b' seen := by
  induction run with
  | start => exact .refl b
  | step run h ih =>
    obtain ⟨others, other⟩ := List.forall_mem_append.mp others
    exact (ih others).trans (beside_of_step? h (other _ (List.mem_singleton_self _)))

/-- A pulse without volume, and any pulse after the speaker was given up on, leaves everything alone. -/
theorem beginPulse_kept (kept : tone.gain.isSilent = true ∨ b.failed = true) :
    b.beginPulse tone = (b, []) := by
  rw [beginPulse, if_pos (Bool.or_eq_true_iff.mpr kept)]

/-- A pulse with volume while the speaker is not given up on. -/
theorem beginPulse_tried (available : b.thread = .ok ()) (loud : tone.gain.isSilent = false)
    (going : b.failed = false) :
    b.beginPulse tone = match b.answers b.attempts.length (.tone tone.frequency) with
      | .ok () => ({ b with
          started := true
          owed := some tone.milliseconds
          attempts := b.attempts ++ [⟨.tone tone.frequency, .ok ()⟩] }, [])
      | .error cause => ({ b with
          started := true
          failed := true
          attempts := b.attempts ++ [⟨.tone tone.frequency, .error cause⟩] }, [.beepFailed cause]) := by
  have hstart : b.start = .ok { b with started := true } := by
    unfold start
    split
    · next started => rw [← started]
    · rw [available]
      rfl
  have tried : ¬ (tone.gain.isSilent || b.failed) = true := by simp [loud, going]
  rw [beginPulse, if_neg tried, hstart]
  simp only [command]
  cases outcome : b.answers b.attempts.length (.tone tone.frequency) <;> rfl

inductive Came (b begun : Beeper) (call : PulseCall) : Prop
  | ignored (kept : call.isLoud = false ∨ b.failed = true) (same : begun.failed = b.failed)
      (ignored : call.Ignored)
  | sounded (loud : call.isLoud = true) (going : b.failed = false) (still : begun.failed = false)
      (sounded : call.Sounded)
  | refused (loud : call.isLoud = true) (going : b.failed = false) (failed : begun.failed = true)
      (refused : call.Refused)

structure Begins (b begun played : Beeper) (call : PulseCall) : Prop where
  came : Came b begun call
  thread : begun.thread = b.thread
  commands : begun.attempts = b.attempts ++ call.commands
  waiting : begun.silencer.queue = b.silencer.queue
  stops : played.sendStop.silencer.queue = played.silencer.queue ++ call.stops

private theorem sendStop_of_none (idle : b.owed = none) : b.sendStop = b := by
  rw [sendStop, idle]

private theorem begins_of_beginPulse {begun played : Beeper} (available : b.thread = .ok ())
    (idle : b.owed = none) (number : tone.gain.isNaN = false) (h : b.beginPulse tone = (begun, told))
    (beside : Beside begun played seen) : Begins b begun played (.between b begun played tone told) := by
  have silent : tone.gain.isSilent = true ↔ ¬ 0 < tone.gain.value := by
    rw [Gain.isSilent_iff number, not_lt]
  have unsent (owed : begun.owed = none) : played.sendStop = played :=
    sendStop_of_none (beside.owed.trans owed)
  by_cases kept : tone.gain.isSilent = true ∨ b.failed = true
  · rw [beginPulse_kept kept] at h
    cases h
    refine ⟨.ignored ?_ rfl ⟨?_, ?_, rfl⟩, rfl, ?_, rfl, ?_⟩
    · exact kept.imp_left fun quiet => decide_eq_false (silent.mp quiet)
    · exact List.drop_length
    · simp only [PulseCall.between, unsent idle, List.drop_length]
    · simp only [PulseCall.between, List.drop_length, List.append_nil]
    · simp only [PulseCall.between, unsent idle, List.drop_length, List.append_nil]
  · obtain ⟨loud, going⟩ : tone.gain.isSilent = false ∧ b.failed = false := by simpa using kept
    have volume : 0 < tone.gain.value := by
      rw [← not_not (a := 0 < tone.gain.value), ← silent, loud]
      exact Bool.false_ne_true
    rw [beginPulse_tried available loud going] at h
    split at h <;> cases h
    · have sent : played.sendStop.silencer.queue =
          played.silencer.queue ++ [played.now + tone.milliseconds] := by
        rw [sendStop, beside.owed]
        rfl
      refine ⟨.sounded (decide_eq_true volume) going going ⟨?_, ?_, rfl⟩, rfl, ?_, rfl, ?_⟩
      all_goals simp only [PulseCall.between, sent, List.drop_left]
    · next cause _ =>
      refine ⟨.refused (decide_eq_true volume) going rfl ⟨cause, ?_, ?_, rfl⟩, rfl, ?_, rfl, ?_⟩
      all_goals simp only [PulseCall.between, unsent idle, List.drop_left, List.drop_length,
        List.append_nil]

private theorem Came.told_eq {begun : Beeper} {call : PulseCall} (h : Came b begun call) :
    call.told = call.commands.filterMap SpeakerAttempt.warning? ∧
      ∀ a ∈ call.commands, a.command.isTone = true := by
  cases h with
  | ignored kept same ignored =>
    obtain ⟨commands, -, told⟩ := ignored
    rw [commands, told]
    exact ⟨rfl, nofun⟩
  | sounded loud going still sounded =>
    obtain ⟨commands, -, told⟩ := sounded
    rw [commands, told]
    exact ⟨rfl, by simp [SpeakerCommand.isTone]⟩
  | refused loud going failed refused =>
    obtain ⟨cause, commands, -, told⟩ := refused
    rw [commands, told]
    exact ⟨rfl, by simp [SpeakerCommand.isTone]⟩

private theorem Course.concat {begun : Beeper} {call : PulseCall} {calls : List PulseCall}
    (course : Course b.failed calls) (loud : call.isLoud = true) (came : Came b begun call) :
    Course begun.failed (calls ++ [call]) := by
  cases came with
  | ignored kept same ignored =>
    obtain quiet | failed := kept
    · rw [loud] at quiet
      cases quiet
    · rw [same]
      rw [failed] at course ⊢
      cases course with
      | givenUp sounded refused earlier =>
        rw [List.append_assoc, List.cons_append]
        exact .givenUp sounded refused
          (List.forall_mem_append.mpr ⟨earlier, List.forall_mem_singleton.mpr ignored⟩)
  | sounded loud going still sounded =>
    rw [still]
    rw [going] at course
    cases course with
    | going earlier =>
      exact .going (List.forall_mem_append.mpr ⟨earlier, List.forall_mem_singleton.mpr sounded⟩)
  | refused loud going failed refused =>
    rw [failed]
    rw [going] at course
    cases course with
    | going earlier => exact .givenUp earlier refused nofun

private theorem Course.warnings {failed : Bool} {calls : List PulseCall} (course : Course failed calls) :
    ((calls.flatMap PulseCall.commands).filterMap SpeakerAttempt.warning?).length =
      if failed then 1 else 0 := by
  have silent {calls : List PulseCall}
      (h : ∀ call ∈ calls, call.commands.filterMap SpeakerAttempt.warning? = []) :
      (calls.flatMap PulseCall.commands).filterMap SpeakerAttempt.warning? = [] := by
    rw [List.filterMap_flatMap]
    exact List.flatMap_eq_nil_iff.mpr h
  have sounding {calls : List PulseCall} (h : ∀ call ∈ calls, call.Sounded) :
      ∀ call ∈ calls, call.commands.filterMap SpeakerAttempt.warning? = [] :=
    fun call mem => by rw [(h call mem).1]; rfl
  cases course with
  | going sounded => rw [silent (sounding sounded)]; rfl
  | givenUp sounded refused ignored =>
    obtain ⟨cause, commands, -, -⟩ := refused
    rw [List.flatMap_append, List.flatMap_cons, commands, List.filterMap_append, List.filterMap_append,
      silent (sounding sounded), silent fun call mem => by rw [(ignored call mem).1]; rfl]
    rfl

/-- What holds of a speaker after whole pulses. -/
structure Ledger (b : Beeper) (made : List PulseCall) (log : List Notice) : Prop where
  thread : b.thread = .ok ()
  idle : b.owed = none
  course : Course b.failed (made.filter PulseCall.isLoud)
  quiet : ∀ call ∈ made, call.isLoud = false → call.Ignored
  commands : (b.attempts.filter fun a => a.command.isTone) = made.flatMap PulseCall.commands
  stops : b.silencer.queue <:+ made.flatMap PulseCall.stops
  warned : log = b.attempts.filterMap SpeakerAttempt.warning?

private theorem ledger_new (answers : Nat → SpeakerCommand → Except Cause Unit) :
    Ledger { answers } [] [] :=
  ⟨rfl, rfl, .going nofun, nofun, rfl, List.suffix_rfl, rfl⟩

private theorem Beside.split (beside : Beside b b' told) :
    (b'.attempts.filter fun a => a.command.isTone) = (b.attempts.filter fun a => a.command.isTone) ∧
      b'.attempts.filterMap SpeakerAttempt.warning? =
        b.attempts.filterMap SpeakerAttempt.warning? ++ told := by
  obtain ⟨silences, given, off, rfl⟩ := beside.attempts
  have none : (silences.filter fun a => a.command.isTone) = [] := by
    rw [List.filter_eq_nil_iff]
    intro a h
    rw [off a h]
    exact Bool.false_ne_true
  rw [given, List.filter_append, none, List.append_nil, List.filterMap_append]
  exact ⟨rfl, rfl⟩

private theorem Ledger.aside (h : Ledger b made log) (beside : Beside b b' told) :
    Ledger b' made (log ++ told) := by
  obtain ⟨tones, warnings⟩ := beside.split
  refine ⟨beside.thread.trans h.thread, beside.owed.trans h.idle, beside.failed ▸ h.course, h.quiet,
    tones.trans h.commands, beside.received.trans h.stops, ?_⟩
  rw [warnings, h.warned]

private theorem sendStop_kept (b : Beeper) : b.sendStop.thread = b.thread ∧ b.sendStop.failed = b.failed ∧
    b.sendStop.attempts = b.attempts ∧ b.sendStop.owed = none := by
  unfold sendStop
  split
  · next idle => exact ⟨rfl, rfl, rfl, idle⟩
  · exact ⟨rfl, rfl, rfl, rfl⟩

private theorem Ledger.pulse {begun played : Beeper} {call : PulseCall} (h : Ledger b made log)
    (begins : Begins b begun played call) (beside : Beside begun played seen) :
    Ledger played.sendStop (made ++ [call]) (log ++ call.told ++ seen) := by
  obtain ⟨tones, warnings⟩ := beside.split
  obtain ⟨thread, failed, attempts, owed⟩ := played.sendStop_kept
  obtain ⟨told, sounding⟩ := begins.came.told_eq
  refine ⟨?thread, owed, ?course, ?quiet, ?commands, ?stops, ?warned⟩
  case thread => rw [thread, beside.thread, begins.thread, h.thread]
  case course =>
    rw [failed, beside.failed, List.filter_append, List.filter_singleton]
    cases loud : call.isLoud with
    | true => exact h.course.concat loud begins.came
    | false =>
      have same : begun.failed = b.failed := by
        cases begins.came with
        | ignored kept same => exact same
        | sounded loud' | refused loud' =>
          rw [loud] at loud'
          cases loud'
      rw [same]
      simpa using h.course
  case quiet =>
    refine List.forall_mem_append.mpr ⟨h.quiet, List.forall_mem_singleton.mpr fun silent => ?_⟩
    cases begins.came with
    | ignored kept same ignored => exact ignored
    | sounded loud | refused loud =>
      rw [loud] at silent
      cases silent
  case commands =>
    have all : (call.commands.filter fun a => a.command.isTone) = call.commands :=
      List.filter_eq_self.mpr sounding
    rw [attempts, tones, begins.commands, List.filter_append, h.commands, all, List.flatMap_append,
      List.flatMap_singleton]
  case stops =>
    obtain ⟨received, queued⟩ := (begins.waiting ▸ beside.received).trans h.stops
    rw [begins.stops, List.flatMap_append, List.flatMap_singleton, ← queued, List.append_assoc]
    exact List.suffix_append _ _
  case warned =>
    rw [attempts, warnings, begins.commands, List.filterMap_append, ← told, h.warned]

private theorem Calls.ledger {answers : Nat → SpeakerCommand → Except Cause Unit}
    (calls : Calls { answers } b made log) (numbers : ∀ call ∈ made, call.tone.gain.isNaN = false) :
    Ledger b made log := by
  induction calls with
  | start => exact ledger_new answers
  | aside calls other h ih => exact (ih numbers).aside (beside_of_step? h other)
  | pulse calls h meanwhile others ih =>
    obtain ⟨numbers, number⟩ := List.forall_mem_append.mp numbers
    have ledger := ih numbers
    have begins := (Option.ite_none_right_eq_some.mp h).2
    have beside := meanwhile.beside others
    exact ledger.pulse (begins_of_beginPulse ledger.thread ledger.idle
      (number _ (List.mem_singleton_self _)) (Option.some.inj begins) beside) beside

private theorem flatMap_commands (quiet : ∀ call ∈ made, call.isLoud = false → call.Ignored) :
    (made.filter PulseCall.isLoud).flatMap PulseCall.commands = made.flatMap PulseCall.commands := by
  induction made with
  | nil => rfl
  | cons call made ih =>
    obtain ⟨first, rest⟩ := List.forall_mem_cons.mp quiet
    cases loud : call.isLoud with
    | true => rw [List.filter_cons_of_pos loud, List.flatMap_cons, List.flatMap_cons, ih rest]
    | false =>
      rw [List.filter_cons_of_neg (by simp [loud]), List.flatMap_cons, (first loud).1, ih rest,
        List.nil_append]

/-- Every warning is of a refused tone or of a refused silence. -/
theorem length_warnings (attempts : List SpeakerAttempt) :
    (attempts.filterMap SpeakerAttempt.warning?).length =
      ((attempts.filter fun a => a.command.isTone).filterMap SpeakerAttempt.warning?).length +
        attempts.countP SpeakerAttempt.isRefusedSilence := by
  induction attempts with
  | nil => rfl
  | cons a attempts ih =>
    match a with
    | ⟨.tone _, .ok ()⟩ | ⟨.silence, .ok ()⟩ =>
      rw [List.countP_cons_of_neg Bool.false_ne_true]
      exact ih
    | ⟨.tone _, .error _⟩ =>
      rw [List.countP_cons_of_neg Bool.false_ne_true]
      exact (congrArg (· + 1) ih).trans (Nat.add_right_comm _ _ _)
    | ⟨.silence, .error _⟩ =>
      rw [List.countP_cons_of_pos rfl]
      exact congrArg (· + 1) ih

private theorem Ledger.warnings (h : Ledger b made log) :
    log.length = (if b.failed then 1 else 0) + b.attempts.countP SpeakerAttempt.isRefusedSilence := by
  rw [h.warned, length_warnings, h.commands, ← flatMap_commands h.quiet, h.course.warnings]

private theorem none_refused_iff (attempts : List SpeakerAttempt) :
    attempts.countP SpeakerAttempt.isRefusedSilence = 0 ↔
      ∀ a ∈ attempts, a.command = .silence → a.outcome = .ok () := by
  rw [List.countP_eq_zero]
  refine forall₂_congr fun a _ => ?_
  obtain ⟨command, outcome⟩ := a
  cases command <;> cases outcome <;> simp [SpeakerAttempt.isRefusedSilence]

private theorem Calls.pulse_alone (calls : Calls b₀ b made log) (idle : b.Idle) (tone : Tone) :
    Calls b₀ (b.pulse tone).1
      (made ++ [.between b (b.beginPulse tone).1 (b.beginPulse tone).1 tone (b.pulse tone).2])
      (log ++ (b.pulse tone).2) := by
  have whole := calls.pulse (step?_beginPulse idle tone) .start (List.forall_mem_nil _)
  rwa [List.append_nil] at whole

private theorem Calls.stopped (calls : Calls b₀ b made log) {stop : Moment} (started : b.started = true)
    (waits : b.silencer.phase = .waiting) (queued : b.silencer.queue = [stop]) :
    let after : Beeper := { b with
      now := b.now + stop
      silencer := { b.silencer with queue := [], held := none, phase := .waiting } }
    Calls b₀ after.silence.1 made (log ++ after.silence.2) := by
  intro after
  let held : Beeper := { b with silencer := { b.silencer with queue := [], held := some stop } }
  let due : Beeper := { held with now := b.now + stop }
  let about : Beeper := { due with silencer := { due.silencer with phase := .silencing false } }
  have received : b.step? (.wake .received) = some (held, []) := by
    simp [step?, started, Silencer.wake?, Silencer.receive?, waits, queued, held]
  have passed : held.step? (.pass stop) = some (due, []) := rfl
  have timedOut : due.step? (.wake .timedOut) = some (about, []) := by
    simp [step?, started, Silencer.wake?, Silencer.timeOut?, waits, held, due, about]
  have silenced : about.step? .silence = some after.silence := by
    simp [step?, started, Silencer.silence?, about, due, held, after]
  have turnedOff := (((calls.aside rfl received).aside rfl passed).aside rfl timedOut).aside rfl silenced
  rwa [List.append_nil, List.append_nil, List.append_nil] at turnedOff

/-- Whatever the pulses are, whatever the speaker answers and however the stopping thread and the clock go
on in between, while that thread can be started: the pulses with volume above zero sound, each with its own
frequency and its own stop, until one is refused, and none after that does anything; the others do nothing
at all. The speaker is set to no other tones, and nothing else is sent to the stopping thread. What is told
are the commands that were refused: one warning if the speaker was given up on, and one more for every
refusal to fall silent, so that there is exactly the one just if no silence was refused. And a pulse
without volume leaves any speaker as it is. -/
theorem given_up_once {answers : Nat → SpeakerCommand → Except Cause Unit}
    (calls : Calls { answers } b made log) (numbers : ∀ call ∈ made, call.tone.gain.isNaN = false) :
    Course b.failed (made.filter fun call => 0 < call.tone.gain.value) ∧
      (∀ call ∈ made, call.tone.gain.value ≤ 0 → call.Ignored) ∧
      (b.attempts.filter fun a => a.command.isTone) = made.flatMap PulseCall.commands ∧
      b.silencer.queue <:+ made.flatMap PulseCall.stops ∧
      log = b.attempts.filterMap SpeakerAttempt.warning? ∧
      log.length = (if b.failed then 1 else 0) + b.attempts.countP SpeakerAttempt.isRefusedSilence ∧
      (log.length = (if b.failed then 1 else 0) ↔
        ∀ a ∈ b.attempts, a.command = .silence → a.outcome = .ok ()) ∧
      ∀ (other : Beeper) (tone : Tone), other.Idle → tone.gain.isNaN = false → tone.gain.value ≤ 0 →
        other.pulse tone = (other, []) := by
  have ledger := calls.ledger numbers
  have quiet (call : PulseCall) (nothing : call.tone.gain.value ≤ 0) : call.isLoud = false :=
    decide_eq_false (not_lt.mpr nothing)
  refine ⟨ledger.course, fun call h nothing => ledger.quiet call h (quiet call nothing), ledger.commands,
    ledger.stops, ledger.warned, ledger.warnings, ?once, fun other tone idle number nothing => ?silent⟩
  case once => rw [ledger.warnings, Nat.add_eq_left, none_refused_iff]
  case silent =>
    rw [Beeper.pulse, beginPulse_kept (.inl ((Gain.isSilent_iff number).mpr nothing))]
    exact congrArg (·, []) (sendStop_of_none idle.1)

/-- A pulse without volume, one that sounds and is turned off at its end, one that the speaker refuses, and
one more. -/
theorem given_up_once_at_second_tone :
    let answers : Nat → SpeakerCommand → Except Cause Unit := fun k _ =>
      if k = 2 then .error (.other "gone") else .ok ()
    ∃ b made log, Calls { answers } b made log ∧
      made.map (fun call => call.tone.frequency) = [100, 200, 300, 400] ∧
      (∀ call ∈ made, call.tone.gain.isNaN = false) ∧ b.failed = true ∧
      b.attempts.map SpeakerAttempt.command = [.tone 200, .silence, .tone 300] ∧
      Course true (made.filter fun call => 0 < call.tone.gain.value) ∧ log.length = 1 := by
  intro answers
  have fresh : Calls { answers } { answers } [] [] := .start
  have silent := fresh.pulse_alone ⟨rfl, rfl⟩ ⟨100, ⟨0x80000000⟩, 50⟩
  have sounded := silent.pulse_alone ⟨rfl, rfl⟩ { frequency := 200 }
  have stopped := sounded.stopped rfl rfl rfl
  have refused := stopped.pulse_alone ⟨rfl, rfl⟩ { frequency := 300 }
  have ignored := refused.pulse_alone ⟨rfl, rfl⟩ { frequency := 400 }
  obtain ⟨course, -, -, -, -, -, once, -⟩ := given_up_once ignored (by decide)
  exact ⟨_, _, _, ignored, rfl, by decide, rfl, rfl, course, once.mpr (by decide)⟩

/-- A tone that sounds, its silence refused, and the next tone refused too: the stopping thread warns
besides the pulse. -/
theorem warned_twice_of_refused_silence :
    let answers : Nat → SpeakerCommand → Except Cause Unit := fun k _ =>
      if k = 0 then .ok () else .error (.other "gone")
    ∃ b made log, Calls { answers } b made log ∧
      made.map (fun call => call.tone.frequency) = [2093, 440] ∧
      (∀ call ∈ made, call.tone.gain.isNaN = false) ∧ b.failed = true ∧
      b.attempts.map SpeakerAttempt.command = [.tone 2093, .silence, .tone 440] ∧
      log = [.speakerNotSilenced (.other "gone"), .beepFailed (.other "gone")] ∧
      log.length ≠ if b.failed then 1 else 0 := by
  intro answers
  have fresh : Calls { answers } { answers } [] [] := .start
  have sounded := fresh.pulse_alone ⟨rfl, rfl⟩ {}
  have unsilenced := sounded.stopped rfl rfl rfl
  have refused := unsilenced.pulse_alone ⟨rfl, rfl⟩ { frequency := 440 }
  exact ⟨_, _, _, refused, rfl, by decide, rfl, rfl, rfl, by decide⟩

end Beeper
end Chip8Console
