import Chip8Console.Proofs.SpeakerMoves

/-!
No tone goes on for ever. While a tone is the last thing that the speaker was told, its stop is on the
way: with the pulse, then in the channel, then with the stopping thread.
-/
namespace Chip8Console.Beeper

/-- The stop of a tone of this length, which began no earlier than `since`, is still to come. -/
inductive StopOwed (b : Beeper) (length : Nat) (since : Moment) : Prop
  | unsent (owed : b.owed = some length) (began : since ≤ b.now)
  | queued (sent : Moment) (idle : b.owed = none) (began : since ≤ sent) (past : sent ≤ b.now)
      (last : b.silencer.queue.getLast? = some (sent + length))
  | held (sent : Moment) (idle : b.owed = none) (began : since ≤ sent) (past : sent ≤ b.now)
      (empty : b.silencer.queue = []) (holds : b.silencer.held = some (sent + length))

variable {b₀ b b' : Beeper} {move : Move} {moves : List Move} {told notices : List Notice}

/-- What a move means for the speaker: nothing, or silence, or the tone of a pulse. -/
inductive Effect (b b' : Beeper) : Move → Prop
  | none (move : Move) (same : b'.carriedOut = b.carriedOut)
      (kept : ∀ length since, b.StopOwed length since → b'.StopOwed length since) : Effect b b' move
  | silence (after : b'.carriedOut = b.carriedOut ++ [.silence]) : Effect b b' .silence
  | tone (tone : Tone) (after : b'.carriedOut = b.carriedOut ++ [.tone tone.frequency])
      (owed : b'.StopOwed tone.milliseconds b.now) : Effect b b' (.beginPulse tone)

private theorem carriedOut_attempt (b : Beeper) (c : SpeakerCommand) (outcome : Except Cause Unit) :
    carriedOut { b with attempts := b.attempts ++ [⟨c, outcome⟩] } =
      b.carriedOut ++ if outcome.isOk then [c] else [] := by
  simp only [carriedOut, List.filter_append, List.map_append]
  cases outcome <;> rfl

private theorem StopOwed.congr {length : Nat} {since : Moment} (h : b.StopOwed length since)
    (owed : b'.owed = b.owed) (queue : b'.silencer.queue = b.silencer.queue)
    (held : b'.silencer.held = b.silencer.held) (now : b.now ≤ b'.now) : b'.StopOwed length since := by
  cases h with
  | unsent howed began => exact .unsent (owed.trans howed) (Nat.le_trans began now)
  | queued sent idle began past last =>
    exact .queued sent (owed.trans idle) began (Nat.le_trans past now) (queue ▸ last)
  | held sent idle began past empty holds =>
    exact .held sent (owed.trans idle) began (Nat.le_trans past now) (queue.trans empty) (held.trans holds)

private theorem Moved.effect (moved : Moved b move b' told)
    (silences : ∀ k, b.answers k .silence = .ok ()) : Effect b b' move := by
  cases moved with
  | ignored => exact .none _ rfl fun _ _ owed => owed
  | unstarted => exact .none _ rfl fun _ _ owed => owed.congr rfl rfl rfl (Nat.le_refl _)
  | refused tone cause idle =>
    refine .none _ ?_ fun _ _ owed => owed.congr rfl rfl rfl (Nat.le_refl _)
    exact (b.carriedOut_attempt _ _).trans (List.append_nil _)
  | sounded tone idle =>
    exact .tone tone (b.carriedOut_attempt _ _) (.unsent rfl (Nat.le_refl _))
  | sent length owed =>
    refine .none _ rfl fun length' since stop => ?_
    cases stop with
    | unsent owed' began =>
      obtain rfl := Option.some.inj (owed.symm.trans owed')
      exact .queued b.now rfl began (Nat.le_refl _) List.getLast?_concat
    | queued sent idle | held sent idle =>
      rw [owed] at idle
      cases idle
  | closed => exact .none _ rfl fun _ _ owed => owed.congr rfl rfl rfl (Nat.le_refl _)
  | received stop rest started waits queued =>
    refine .none _ rfl fun length since owed => ?_
    cases owed with
    | unsent owed began => exact .unsent owed began
    | queued sent idle began past last =>
      rw [queued] at last
      -- the last moment of the queue leaves it only for the hands of the thread
      cases rest with
      | nil =>
        obtain rfl := Option.some.inj last
        exact .held sent idle began past rfl rfl
      | cons next rest => exact .queued sent idle began past last
    | held sent idle began past empty =>
      rw [queued] at empty
      cases empty
  | timedOut => exact .none _ rfl fun _ _ owed => owed.congr rfl rfl rfl (Nat.le_refl _)
  | noted => exact .none _ rfl fun _ _ owed => owed.congr rfl rfl rfl (Nat.le_refl _)
  | silenced last told started about =>
    rw [silences]
    exact .silence (b.carriedOut_attempt _ _)
  | passed milliseconds => exact .none _ rfl fun _ _ owed => owed.congr rfl rfl rfl (Nat.le_add_right _ _)

/-- The tone of this pulse is the last thing that the speaker did, and its stop is still to come. -/
inductive Sounding (b₀ b : Beeper) (moves : List Move) (tone : Tone) : Prop
  | since (before after : Beeper) (earlier later : List Move) (told told' told'' : List Notice)
      (split : moves = earlier ++ .beginPulse tone :: later)
      (reached : Run b₀ before earlier told)
      (pulse : before.step? (.beginPulse tone) = some (after, told'))
      (sounded : after.carriedOut = before.carriedOut ++ [.tone tone.frequency])
      (going_on : Run after b later told'') (last : b.carriedOut = after.carriedOut)
      (owed : b.StopOwed tone.milliseconds before.now)

private theorem Run.sounding (run : Run b₀ b moves notices) (quiet : b₀.carriedOut = [])
    (silences : ∀ k, b₀.answers k .silence = .ok ()) {frequency : UInt16}
    (last : b.carriedOut.getLast? = some (.tone frequency)) :
    ∃ tone, tone.frequency = frequency ∧ Sounding b₀ b moves tone := by
  induction run with
  | start =>
    rw [quiet] at last
    cases last
  | step run h ih =>
    cases (moved_of_step? h).effect (by rw [run.answers]; exact silences) with
    | none move same kept =>
      rw [same] at last
      obtain ⟨tone, hfrequency, ⟨before, after, earlier, later, _, _, _, rfl, reached, pulse, sounded,
        going_on, last', owed⟩⟩ := ih last
      exact ⟨tone, hfrequency, before, after, earlier, _, _, _, _, List.append_assoc .., reached, pulse,
        sounded, going_on.step h, same.trans last', kept _ _ owed⟩
    | silence after =>
      rw [after, List.getLast?_concat] at last
      cases last
    | tone tone after owed =>
      rw [after, List.getLast?_concat] at last
      cases last
      exact ⟨tone, rfl, _, _, _, [], _, _, _, rfl, run, h, after, .start, rfl, owed⟩

private theorem Coherent.not_stopOwed (h : b.Coherent) (dropped : b.Dropped) {frequency : UInt16}
    (last : b.carriedOut.getLast? = some (.tone frequency)) (length : Nat) (since : Moment) :
    ¬ b.StopOwed length since := by
  obtain ⟨closed, hended⟩ := dropped
  have started : b.started = true := by
    cases fresh : b.started with
    | true => rfl
    | false =>
      rw [carriedOut, h.untouched fresh] at last
      cases last
  have ended := hended started
  intro owed
  cases owed with
  | unsent howed => exact h.not_closed howed closed
  | queued sent idle began past hlast =>
    rw [(h.last (.inr ended)).1] at hlast
    cases hlast
  | held sent idle began past empty holds =>
    rw [h.ended ended] at holds
    cases holds

def Move.stopping : Move → Bool
  | .wake _ | .silence => true
  | _ => false

/-- A bound on what is left to do for the stopping thread. -/
def work (b : Beeper) : Nat :=
  -- a moment that is held may lead to a silence and another wait: receiving it must cost more
  3 * b.silencer.queue.length + match b.silencer.phase with
    | .ended => 0
    | .silencing true => 1
    | .silencing false => 3
    | .waiting => if b.silencer.held.isSome then 4 else 2

private theorem Moved.work_lt (moved : Moved b move b' told) (stopping : move.stopping = true) :
    b'.work < b.work := by
  cases moved with
  | received stop rest started waits queued =>
    simp only [work, waits, queued, List.length_cons, Option.isSome_some, if_true]
    split <;> omega
  | timedOut stop started waits held due =>
    simp [work, waits, held]
  | noted started waits empty closed =>
    simp only [work, waits, empty]
    cases b.silencer.held <;> simp
  | silenced last told started about =>
    simp only [work, about]
    cases last <;> simp
  | _ => cases stopping

private theorem Moved.closing (moved : Moved b move b' told) (h : b.Coherent)
    (closed : b.silencer.closed = true) :
    b'.silencer.closed = true ∧ (move.stopping = false → b'.work = b.work) := by
  cases moved with
  | ignored tone idle | unstarted tone cause idle | refused tone cause idle | sounded tone idle
  | closed idle => exact absurd closed idle.not_closed
  | sent length owed => exact absurd closed (h.not_closed owed)
  | passed => exact ⟨closed, fun _ => rfl⟩
  | received | timedOut | noted | silenced => exact ⟨closed, nofun⟩

private theorem Run.stopping_le (run : Run b b' moves notices) (h : b.Coherent)
    (closed : b.silencer.closed = true) :
    b'.silencer.closed = true ∧ moves.countP Move.stopping + b'.work ≤ b.work := by
  induction run with
  | start => exact ⟨closed, by simp⟩
  | @step b'' b' moves move told notices run hstep ih =>
    obtain ⟨hclosed, hwork⟩ := ih
    have moved := moved_of_step? hstep
    obtain ⟨hclosed', hsame⟩ := moved.closing (run.coherent h) hclosed
    refine ⟨hclosed', ?_⟩
    rw [List.countP_append, List.countP_singleton]
    cases hstopping : move.stopping with
    | false =>
      rw [hsame hstopping]
      simpa using hwork
    | true =>
      have := moved.work_lt hstopping
      simp only [if_true]
      omega

/-- Until the speaker is dropped, the stopping thread can go on. -/
theorem stopping_possible (closed : b.silencer.closed = true) (undropped : ¬ b.Dropped) :
    ∃ move, move.stopping = true ∧ (b.step? move).isSome = true := by
  obtain ⟨started, alive⟩ : b.started = true ∧ b.silencer.phase ≠ .ended := by
    simpa [Dropped, closed] using undropped
  cases hphase : b.silencer.phase with
  | ended => exact absurd hphase alive
  | silencing last => exact ⟨.silence, rfl, by simp [step?, started, Silencer.silence?, hphase]⟩
  | waiting =>
    cases hqueue : b.silencer.queue with
    | nil =>
      refine ⟨.wake .channelClosed, rfl, ?_⟩
      simp [step?, started, Silencer.wake?, Silencer.noteClosed?, hphase, hqueue, closed]
    | cons stop rest =>
      refine ⟨.wake .received, rfl, ?_⟩
      simp [step?, started, Silencer.wake?, Silencer.receive?, hphase, hqueue]

/-- Whatever pulses there are, however the two threads take turns and whatever the speaker answers to
tones: while the last thing it did is the tone of a pulse, the stop of that very pulse is still to come;
and once it was dropped, the last thing it did, if anything, is to fall silent. The drop does return:
once it has begun, the stopping thread has only so many moves left, and is never stuck before it ends. -/
theorem silent_in_the_end {answers : Nat → SpeakerCommand → Except Cause Unit}
    {thread : Except Cause Unit} (silences : ∀ k, answers k .silence = .ok ())
    (run : Run { answers, thread } b moves notices) :
    (∀ frequency, b.carriedOut.getLast? = some (.tone frequency) →
      ∃ tone, tone.frequency = frequency ∧ Sounding { answers, thread } b moves tone) ∧
    (b.Dropped → ∀ command, b.carriedOut.getLast? = some command → command = .silence) ∧
    (b.silencer.closed = true →
      (∃ bound, ∀ b' later told, Run b b' later told → later.countP Move.stopping ≤ bound) ∧
      (¬ b.Dropped → ∃ move, move.stopping = true ∧ (b.step? move).isSome = true)) := by
  have coherent := run.coherent (coherent_new answers thread)
  refine ⟨fun frequency last => run.sounding rfl silences last, ?_, ?_⟩
  · intro dropped command last
    cases command with
    | silence => rfl
    | tone frequency =>
      obtain ⟨tone, -, ⟨_, _, _, _, _, _, _, -, -, -, -, -, -, owed⟩⟩ := run.sounding rfl silences last
      exact absurd owed (coherent.not_stopOwed dropped last _ _)
  · intro closed
    refine ⟨⟨b.work, fun b' later told run' => ?_⟩, stopping_possible closed⟩
    exact Nat.le_of_add_right_le (run'.stopping_le coherent closed).2

/-- A second tone begins just as the stop of the first has come, before the speaker is silenced; then the
speaker is dropped. -/
theorem silent_in_the_end_of_race :
    let answers : Nat → SpeakerCommand → Except Cause Unit := fun _ _ => .ok ()
    (∀ k, answers k .silence = .ok ()) ∧
    ∃ b moves notices b' moves' notices', Run { answers } b moves notices ∧
      (∃ tone, tone.frequency = 440 ∧ Sounding { answers } b moves tone) ∧
      Run { answers } b' moves' notices' ∧ b'.Dropped ∧
      b'.carriedOut = [.tone 2093, .tone 440, .silence, .silence] ∧
      ∀ command, b'.carriedOut.getLast? = some command → command = .silence := by
  intro answers
  have silences (k : Nat) : answers k .silence = .ok () := rfl
  have go {b b' : Beeper} {moves : List Move} {notices told : List Notice}
      (run : Run { answers } b moves notices) (move : Move) (h : b.step? move = some (b', told)) :
      Run { answers } b' (moves ++ [move]) (notices ++ told) := run.step h
  have held := go (go (go .start (.beginPulse {}) rfl) .sendStop rfl) (.wake .received) rfl
  have late := go (go held (.pass 50) rfl) (.wake .timedOut) rfl
  have cut := go late (.beginPulse { frequency := 440 }) rfl
  have closed := go (go (go cut .silence rfl) .sendStop rfl) .close rfl
  have finished := go (go (go closed (.wake .received) rfl) (.wake .channelClosed) rfl) .silence rfl
  have dropped := (silent_in_the_end silences finished).2.1 ⟨rfl, fun _ => rfl⟩
  exact ⟨silences, _, _, _, _, _, _, cut, (silent_in_the_end silences cut).1 440 rfl, finished,
    ⟨rfl, fun _ => rfl⟩, rfl, dropped⟩

end Chip8Console.Beeper
