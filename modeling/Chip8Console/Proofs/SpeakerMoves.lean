import Chip8Console.Sound.Beeper

/-!
The moves of a speaker and of the two threads that share it. Each move leaves one of a few things behind,
and these are told here once.
-/
namespace Chip8Console.Beeper

/-- The commands that the speaker carried out, oldest first. -/
def carriedOut (b : Beeper) : List SpeakerCommand :=
  (b.attempts.filter fun a => a.outcome.isOk).map SpeakerAttempt.command

def Idle (b : Beeper) : Prop := b.owed = none ∧ b.silencer.closed = false

/-- The speaker was dropped: nothing more is sent, and the stopping thread, if there ever was one, has
ended. -/
def Dropped (b : Beeper) : Prop :=
  b.silencer.closed = true ∧ (b.started = true → b.silencer.phase = .ended)

/-- What can become of a move. -/
inductive Moved (b : Beeper) : Move → Beeper → List Notice → Prop
  | ignored (tone : Tone) (idle : b.Idle) (kept : tone.gain.isSilent = true ∨ b.failed = true) :
      Moved b (.beginPulse tone) b []
  | unstarted (tone : Tone) (cause : Cause) (idle : b.Idle) (fresh : b.started = false) :
      Moved b (.beginPulse tone) { b with failed := true } [.beepThreadNotStarted cause]
  | refused (tone : Tone) (cause : Cause) (idle : b.Idle) : Moved b (.beginPulse tone)
      { b with
        started := true
        failed := true
        attempts := b.attempts ++ [⟨.tone tone.frequency, .error cause⟩] } [.beepFailed cause]
  | sounded (tone : Tone) (idle : b.Idle) : Moved b (.beginPulse tone)
      { b with
        started := true
        owed := some tone.milliseconds
        attempts := b.attempts ++ [⟨.tone tone.frequency, .ok ()⟩] } []
  | sent (length : Nat) (owed : b.owed = some length) : Moved b .sendStop
      { b with owed := none, silencer := b.silencer.send (b.now + length) } []
  | closed (idle : b.Idle) : Moved b .close { b with silencer := b.silencer.close } []
  | received (stop : Moment) (rest : List Moment) (started : b.started = true)
      (waits : b.silencer.phase = .waiting) (queued : b.silencer.queue = stop :: rest) :
      Moved b (.wake .received)
        { b with silencer := { b.silencer with queue := rest, held := some stop } } []
  | timedOut (stop : Moment) (started : b.started = true) (waits : b.silencer.phase = .waiting)
      (held : b.silencer.held = some stop) (due : stop ≤ b.now) : Moved b (.wake .timedOut)
        { b with silencer := { b.silencer with phase := .silencing false } } []
  | noted (started : b.started = true) (waits : b.silencer.phase = .waiting)
      (empty : b.silencer.queue = []) (closed : b.silencer.closed = true) :
      Moved b (.wake .channelClosed)
        { b with silencer := { b.silencer with
            phase := if b.silencer.held.isSome then .silencing true else .ended } } []
  | silenced (last : Bool) (told : List Notice) (started : b.started = true)
      (about : b.silencer.phase = .silencing last) : Moved b .silence
        { b with
          silencer := { b.silencer with held := none, phase := if last then .ended else .waiting }
          attempts := b.attempts ++ [⟨.silence, b.answers b.attempts.length .silence⟩] } told
  | passed (milliseconds : Nat) :
      Moved b (.pass milliseconds) { b with now := b.now + milliseconds } []

variable {b b' : Beeper} {move : Move} {told : List Notice}

private theorem start_cases (b : Beeper) :
    (∃ cause, b.start = .error cause ∧ b.started = false) ∨ b.start = .ok { b with started := true } := by
  unfold start
  split
  · next started =>
    exact .inr (by rw [← started])
  · next fresh =>
    cases b.thread with
    | error cause => exact .inl ⟨cause, rfl, eq_false_of_ne_true fresh⟩
    | ok => exact .inr rfl

private theorem moved_of_beginPulse {tone : Tone} (idle : b.Idle)
    (h : b.beginPulse tone = (b', told)) : Moved b (.beginPulse tone) b' told := by
  unfold beginPulse at h
  split at h
  · next kept =>
    cases h
    exact .ignored tone idle (Bool.or_eq_true_iff.mp kept)
  · obtain ⟨cause, hstart, fresh⟩ | hstart := b.start_cases
    · rw [hstart] at h
      cases h
      exact .unstarted tone cause idle fresh
    · rw [hstart] at h
      cases houtcome : b.answers b.attempts.length (.tone tone.frequency) with
      | ok =>
        simp only [command, houtcome] at h
        cases h
        exact .sounded tone idle
      | error cause =>
        simp only [command, houtcome] at h
        cases h
        exact .refused tone cause idle

private theorem moved_of_wake? {w : Silencer.Wake} {silencer : Silencer} (started : b.started = true)
    (h : b.silencer.wake? b.now w = some silencer) : Moved b (.wake w) { b with silencer } [] := by
  cases w with
  | received =>
    obtain ⟨waits, stop, rest, queued, rfl⟩ := Silencer.receive?_eq_some_iff.mp h
    exact .received stop rest started waits queued
  | timedOut =>
    obtain ⟨waits, ⟨stop, held, due⟩, rfl⟩ := Silencer.timeOut?_eq_some_iff.mp h
    exact .timedOut stop started waits held due
  | channelClosed =>
    obtain ⟨waits, empty, closed, rfl⟩ := Silencer.noteClosed?_eq_some_iff.mp h
    exact .noted started waits empty closed

private theorem silence_eq (b : Beeper) : ∃ told, b.silence = ((b.command .silence).2, told) := by
  simp only [silence, command]
  cases b.answers b.attempts.length .silence <;> exact ⟨_, rfl⟩

/-- Every move that can come next is one of those that `Moved` lists. -/
theorem moved_of_step? (h : b.step? move = some (b', told)) : Moved b move b' told := by
  cases move with
  | beginPulse tone =>
    simp only [step?, Option.ite_none_right_eq_some, Bool.and_eq_true, Option.isNone_iff_eq_none,
      Bool.not_eq_true', Option.some.injEq] at h
    exact moved_of_beginPulse h.1 h.2
  | sendStop =>
    simp only [step?, sendStop] at h
    cases howed : b.owed with
    | none =>
      rw [howed] at h
      cases h
    | some length =>
      rw [howed] at h
      cases h
      exact .sent length howed
  | close =>
    simp only [step?, Option.ite_none_right_eq_some, Bool.and_eq_true, Option.isNone_iff_eq_none,
      Bool.not_eq_true', Option.some.injEq, Prod.mk.injEq] at h
    obtain ⟨idle, rfl, rfl⟩ := h
    exact .closed idle
  | wake w =>
    simp only [step?, Option.ite_none_right_eq_some, Option.map_eq_some_iff, Prod.mk.injEq] at h
    obtain ⟨started, silencer, hwake, rfl, rfl⟩ := h
    exact moved_of_wake? started hwake
  | silence =>
    simp only [step?, Option.ite_none_right_eq_some, Option.map_eq_some_iff] at h
    obtain ⟨started, silencer, hsilence, hafter⟩ := h
    obtain ⟨told', htold⟩ := silence_eq { b with silencer }
    obtain ⟨last, about, rfl⟩ := Silencer.silence?_eq_some_iff.mp hsilence
    cases htold.symm.trans hafter
    exact .silenced last _ started about
  | pass milliseconds =>
    cases h
    exact .passed milliseconds

inductive Run (b₀ : Beeper) : Beeper → List Move → List Notice → Prop
  | start : Run b₀ b₀ [] []
  | step {b b' : Beeper} {moves : List Move} {move : Move} {told notices : List Notice}
      (run : Run b₀ b moves notices) (h : b.step? move = some (b', told)) :
      Run b₀ b' (moves ++ [move]) (notices ++ told)

variable {b₀ : Beeper} {moves : List Move} {notices : List Notice}

private theorem Run.trans {later : List Move} {more : List Notice} (first : Run b₀ b moves notices)
    (second : Run b b' later more) : Run b₀ b' (moves ++ later) (notices ++ more) := by
  induction second with
  | start => simpa only [List.append_nil] using first
  | step run h ih =>
    rw [← List.append_assoc, ← List.append_assoc]
    exact ih.step h

private theorem Run.single (h : b.step? move = some (b', told)) : Run b b' [move] told := Run.start.step h

/-- Between two pulses another may begin. -/
theorem step?_beginPulse (idle : b.Idle) (tone : Tone) :
    b.step? (.beginPulse tone) = some (b.beginPulse tone) := by
  simp [step?, idle.1, idle.2]

/-- A whole pulse is a run of moves of the calling thread. -/
theorem pulse_run (idle : b.Idle) (tone : Tone) :
    ∃ moves, Run b (b.pulse tone).1 moves (b.pulse tone).2 := by
  have begun : Run b (b.beginPulse tone).1 [.beginPulse tone] (b.beginPulse tone).2 :=
    Run.single (step?_beginPulse idle tone)
  simp only [pulse]
  cases howed : (b.beginPulse tone).1.owed with
  | none =>
    have unsent : (b.beginPulse tone).1.sendStop = (b.beginPulse tone).1 := by simp [sendStop, howed]
    rw [unsent]
    exact ⟨_, begun⟩
  | some length =>
    have sent : (b.beginPulse tone).1.step? .sendStop = some ((b.beginPulse tone).1.sendStop, []) := by
      simp [step?, howed]
    have run := begun.step sent
    rw [List.append_nil] at run
    exact ⟨_, run⟩

private theorem receiveAll_run (started : b.started = true) (waits : b.silencer.phase = .waiting) :
    ∃ moves, Run b { b with silencer := b.silencer.receiveAll } moves [] := by
  induction hqueue : b.silencer.queue generalizing b with
  | nil =>
    have nothing : b.silencer.receiveAll = b.silencer := by
      rw [Silencer.receiveAll, hqueue, List.getLast?_nil, Option.none_or, ← hqueue]
    rw [nothing]
    exact ⟨[], .start⟩
  | cons stop rest ih =>
    have received : b.silencer.receive? = some { b.silencer with queue := rest, held := some stop } :=
      Silencer.receive?_eq_some_iff.mpr ⟨waits, stop, rest, hqueue, rfl⟩
    let after : Beeper := { b with silencer := { b.silencer with queue := rest, held := some stop } }
    have h : b.step? (.wake .received) = some (after, []) := by
      simp [step?, started, Silencer.wake?, received, after]
    obtain ⟨moves, run⟩ : ∃ moves, Run after { after with silencer := after.silencer.receiveAll } moves [] :=
      ih started waits rfl
    rw [show after.silencer.receiveAll = b.silencer.receiveAll from
      Silencer.receiveAll_receive? _ _ received] at run
    exact ⟨_, (Run.single h).trans run⟩

private theorem wakes_run (started : b.started = true) (waits : b.silencer.phase = .waiting) :
    let all := b.silencer.receiveAll
    ∃ moves, Run b { b with silencer :=
      ((all.wake? b.now .channelClosed).or (all.wake? b.now .timedOut)).getD all } moves [] := by
  intro all
  obtain ⟨moves, received⟩ := receiveAll_run started waits
  have wakes (w : Silencer.Wake) (woken : Silencer) (h : all.wake? b.now w = some woken) :
      Run b { b with silencer := woken } (moves ++ [.wake w]) [] := by
    exact received.step (by simp [step?, started, h, all])
  cases hclosed : all.wake? b.now .channelClosed with
  | some woken => exact ⟨_, wakes _ woken hclosed⟩
  | none =>
    cases hdue : all.wake? b.now .timedOut with
    | some woken => exact ⟨_, wakes _ woken hdue⟩
    | none => exact ⟨_, received⟩

private theorem Run.silenced {woken after : Silencer}
    (run : Run b₀ { b with silencer := woken } moves notices) (started : b.started = true)
    (h : woken.silence? = some after) :
    Run b₀ (silence { b with silencer := after }).1 (moves ++ [.silence])
      (notices ++ (silence { b with silencer := after }).2) := by
  refine run.step ?_
  change (if b.started = true then woken.silence?.map fun s => silence { b with silencer := s } else none) = _
  rw [if_pos started, h, Option.map_some]

/-- Letting the stopping thread do all that it can is a run of moves of that thread. -/
theorem settle_run (started : b.started = true) (waits : b.silencer.phase = .waiting) :
    ∃ moves, Run b b.settle.1 moves b.settle.2 := by
  obtain ⟨moves, run⟩ := wakes_run started waits
  simp only [settle, Silencer.settle]
  generalize ((b.silencer.receiveAll.wake? b.now .channelClosed).or
    (b.silencer.receiveAll.wake? b.now .timedOut)).getD b.silencer.receiveAll = woken at run ⊢
  cases hsilence : woken.silence? with
  | some after => exact ⟨_, run.silenced started hsilence⟩
  | none => exact ⟨_, run⟩

/-- What holds of a speaker and its two threads at every moment. -/
structure Coherent (b : Beeper) : Prop where
  sent : b.silencer.closed = true → b.owed = none
  untouched : b.started = false → b.attempts = []
  last : b.silencer.phase = .silencing true ∨ b.silencer.phase = .ended →
    b.silencer.queue = [] ∧ b.silencer.closed = true
  ended : b.silencer.phase = .ended → b.silencer.held = none

theorem Idle.not_closed (idle : b.Idle) : ¬ b.silencer.closed = true :=
  Bool.not_eq_true _ ▸ idle.2

/-- While a pulse is under way nothing is closed. -/
theorem Coherent.not_closed (h : b.Coherent) {length : Nat} (owed : b.owed = some length) :
    ¬ b.silencer.closed = true := by
  intro closed
  rw [h.sent closed] at owed
  cases owed

/-- A speaker that was never used is coherent. -/
theorem coherent_new (answers : Nat → SpeakerCommand → Except Cause Unit) (thread : Except Cause Unit) :
    Coherent { answers, thread } where
  sent := nofun
  untouched _ := rfl
  last := nofun
  ended _ := rfl

private theorem Moved.coherent (moved : Moved b move b' told) (h : b.Coherent) : b'.Coherent := by
  cases moved with
  | ignored | passed => exact { h with }
  | unstarted => exact { h with }
  | refused tone cause idle => exact { h with untouched := nofun }
  | sounded tone idle =>
    exact { h with sent := fun closed => absurd closed idle.not_closed, untouched := nofun }
  | sent length owed =>
    exact { h with
      sent := fun _ => rfl
      last := fun phase => absurd (h.last phase).2 (h.not_closed owed) }
  | closed idle =>
    exact { h with sent := fun _ => idle.1, last := fun phase => ⟨(h.last phase).1, rfl⟩ }
  | received stop rest started waits queued =>
    exact { h with
      last := fun phase => by simp [waits] at phase
      ended := fun phase => by simp [waits] at phase }
  | timedOut stop started waits held due => exact { h with last := nofun, ended := nofun }
  | noted started waits empty closed =>
    refine { h with last := fun _ => ⟨empty, closed⟩, ended := fun phase => ?_ }
    cases held : b.silencer.held with
    | none => rfl
    | some stop => simp [held] at phase
  | silenced last told started about =>
    refine { h with
      untouched := fun fresh => by simp [started] at fresh
      last := fun phase => ?_
      ended := fun _ => rfl }
    cases last with
    | false => simp at phase
    | true => exact h.last (.inl about)

/-- What holds of a speaker at the start holds at every moment of a run. -/
theorem Run.coherent (run : Run b₀ b moves notices) (h : b₀.Coherent) : b.Coherent := by
  induction run with
  | start => exact h
  | step run move ih => exact (moved_of_step? move).coherent ih

/-- No move changes what the speaker would answer. -/
theorem Run.answers (run : Run b₀ b moves notices) : b.answers = b₀.answers := by
  induction run with
  | start => rfl
  | step run move ih =>
    rw [← ih]
    cases moved_of_step? move <;> rfl

end Chip8Console.Beeper
