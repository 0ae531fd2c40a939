import Chip8Console.Proofs.InstructionFrame
import Chip8Console.Proofs.TickCourse

/-!
The clock of the timers. Ticks count the timers down and nothing else does, whatever the program does in
between, until it sets one of them.
-/
namespace Chip8Console

namespace Interpreter

def SetsTimer (s : Interpreter) : Prop :=
  ∃ x, s.nextWord = (Instruction.setDelay x).word ∨ s.nextWord = (Instruction.setSound x).word

instance (s : Interpreter) : Decidable s.SetsTimer := inferInstanceAs (Decidable (∃ _, _))

private theorem cycled_timers {s : Interpreter} {dice : Dice} {count : Nat}
    (spared : ∀ k < count, ¬ (Machine.cycled s dice k).SetsTimer) :
    (Machine.cycled s dice count).delay = s.delay ∧ (Machine.cycled s dice count).sound = s.sound := by
  induction count with
  | zero => exact ⟨rfl, rfl⟩
  | succ count ih =>
    obtain ⟨hdelay, hsound⟩ := ih fun k lt => spared k (Nat.lt_succ_of_lt lt)
    have last := spared count (Nat.lt_succ_self count)
    constructor
    · refine ((cycle_delay _ _).resolve_right ?_).trans hdelay
      exact fun ⟨x, fetches⟩ => last ⟨x, .inl fetches⟩
    · refine ((cycle_sound _ _).resolve_right ?_).trans hsound
      exact fun ⟨x, fetches⟩ => last ⟨x, .inr fetches⟩

/-- A step of the timers counts each down, to zero at the least, and asks for a tone while the one of the
sound has not run out. -/
theorem tickTimers_counts (s : Interpreter) :
    s.tickTimers.2.delay.toNat = s.delay.toNat - 1 ∧ s.tickTimers.2.sound.toNat = s.sound.toNat - 1 ∧
      s.tickTimers.1 = decide (0 < s.sound.toNat) := by
  have down (timer : UInt8) : (if timer = 0 then 0 else timer - 1).toNat = timer.toNat - 1 := by
    split
    · next out =>
      rw [out]
      rfl
    · next running =>
      have positive : timer.toNat ≠ 0 := fun h => running (UInt8.toNat_inj.mp h)
      rw [UInt8.toNat_sub_of_le]
      · rfl
      · exact UInt8.le_iff_toNat_le.mpr (Nat.one_le_iff_ne_zero.mpr positive)
  refine ⟨down s.delay, down s.sound, ?_⟩
  simp only [tickTimers, ne_eq, Nat.pos_iff_ne_zero, ← UInt8.toNat_inj, UInt8.toNat_zero]

end Interpreter

namespace Course

/-- Whether none of the cycles of so many ticks sets a timer. -/
def SparesTimers (c : Course Interpreter) (ticks : Nat) : Prop :=
  ∀ tick < ticks, ∀ k < c.batch, ¬ (c.inside tick k).SetsTimer

instance (c : Course Interpreter) (ticks : Nat) : Decidable (c.SparesTimers ticks) :=
  inferInstanceAs (Decidable (∀ tick < ticks, ∀ k < c.batch, _))

variable {c : Course Interpreter} {ticks : Nat}

private theorem before_timers (spared : c.SparesTimers ticks) :
    (c.before ticks).delay.toNat = c.machine.delay.toNat - ticks ∧
      (c.before ticks).sound.toNat = c.machine.sound.toNat - ticks := by
  induction ticks with
  | zero => exact ⟨rfl, rfl⟩
  | succ ticks ih =>
    obtain ⟨hdelay, hsound⟩ := ih fun tick lt => spared tick (Nat.lt_succ_of_lt lt)
    obtain ⟨kept, kept'⟩ := Interpreter.cycled_timers (spared ticks (Nat.lt_succ_self ticks))
    obtain ⟨down, down', -⟩ := (c.inside ticks c.batch).tickTimers_counts
    constructor
    · exact down.trans (by rw [inside, kept, hdelay, Nat.sub_sub])
    · exact down'.trans (by rw [inside, kept', hsound, Nat.sub_sub])

/-- A tick asks for a tone if the timer of the sound had not run out before it. -/
theorem sounds_iff (spared : c.SparesTimers (ticks + 1)) :
    c.sounds ticks = true ↔ ticks < c.machine.sound.toNat := by
  obtain ⟨-, hsound⟩ := before_timers fun tick lt => spared tick (Nat.lt_succ_of_lt lt)
  obtain ⟨-, kept⟩ := Interpreter.cycled_timers (spared ticks (Nat.lt_succ_self ticks))
  obtain ⟨-, -, asks⟩ := (c.inside ticks c.batch).tickTimers_counts
  rw [inside, kept, hsound] at asks
  exact (congrArg (· = true) asks).to_iff.trans (decide_eq_true_iff.trans Nat.sub_pos_iff_lt)

end Course

namespace Bench
variable {D S : Type} [Display D] [Sound S] {b : Bench Interpreter D S} {dice : Nat → Dice} {ticks : Nat}
  {later : Bench Interpreter D S}

/-- A tick sends one pulse if the timer of the sound had not run out before it, and reports so. -/
theorem tick_pulse (h : b.after dice ticks = .ok later) (spared : (b.course dice).SparesTimers (ticks + 1))
    {ticked : Scheduler.Ticked Interpreter D S} (ran : later.tick (dice ticks) = .ok ticked) :
    ticked.sinks.sound =
        (if ticks < b.machine.sound.toNat then (Sound.pulse later.sinks.sound b.scheduler.tone).1
        else later.sinks.sound) ∧
      ∀ outcome, ticked.result = .ok outcome → outcome.beeped = decide (ticks < b.machine.sound.toNat) := by
  obtain ⟨hsinks, reports⟩ := tick_course h ran
  have asked : (b.course dice).sounds ticks = decide (ticks < b.machine.sound.toNat) :=
    Bool.eq_iff_iff.mpr ((Course.sounds_iff spared).trans decide_eq_true_iff.symm)
  constructor
  · rw [hsinks]
    simp only [Sinks.after, asked, decide_eq_true_eq]
    split <;> rfl
  · intro outcome hresult
    rw [reports outcome hresult, asked]

/-- What so many ticks send to the sound comes to one pulse for each tick until its timer has run out. -/
theorem after_pulses (h : b.after dice ticks = .ok later) (spared : (b.course dice).SparesTimers ticks) :
    later.sinks.sound = (List.replicate (min ticks b.machine.sound.toNat) b.scheduler.tone).foldl
      (fun sound tone => (Sound.pulse sound tone).1) b.sinks.sound := by
  induction ticks generalizing later with
  | zero =>
    cases h
    rw [Nat.zero_min]
    rfl
  | succ ticks ih =>
    obtain ⟨before, ticked, hbefore, hticked, rfl⟩ := after_succ_eq_ok_iff.mp h
    have pulsed := ih hbefore fun tick lt => spared tick (Nat.lt_succ_of_lt lt)
    refine (tick_pulse hbefore spared hticked).1.trans ?_
    rw [pulsed]
    split
    · next running =>
      rw [Nat.min_eq_left running, Nat.min_eq_left (Nat.le_of_lt running), List.replicate_succ',
        List.foldl_concat]
    · next out =>
      have past : b.machine.sound.toNat ≤ ticks := Nat.not_lt.mp out
      rw [Nat.min_eq_right past, Nat.min_eq_right (Nat.le_succ_of_le past)]

/-- Over every state of the machine and of the scheduler that runs it, every display and sound sink, and so
many ticks that go through: if none of their cycles sets a timer, each timer is down by one for every tick
until it has run out. The first ticks send one pulse each, of the tone of the scheduler, until the timer of
the sound has run out, and no later tick sends one. -/
theorem timers_count_ticks {last : Bench Interpreter D S} (h : b.after dice ticks = .ok last)
    (spared : (b.course dice).SparesTimers ticks) :
    let delay := b.machine.delay.toNat
    let sound := b.machine.sound.toNat
    last.machine.delay.toNat = delay - min ticks delay ∧
    last.machine.sound.toNat = sound - min ticks sound ∧
    (∀ tick < ticks, ∃ before ticked, b.after dice tick = .ok before ∧ before.tick (dice tick) = .ok ticked ∧
      b.after dice (tick + 1) = .ok (.ofTicked ticked) ∧
      ticked.sinks.sound =
        (if tick < min ticks sound then (Sound.pulse before.sinks.sound b.scheduler.tone).1
        else before.sinks.sound) ∧
      ∀ outcome, ticked.result = .ok outcome → outcome.beeped = decide (tick < min ticks sound)) ∧
    last.sinks.sound = (List.replicate (min ticks sound) b.scheduler.tone).foldl
      (fun sound tone => (Sound.pulse sound tone).1) b.sinks.sound := by
  intro delay sound
  obtain ⟨hdelay, hsound⟩ := Course.before_timers spared
  rw [← (after_course h).2] at hdelay hsound
  have runsOut (timer : Nat) : timer - ticks = timer - min ticks timer := by omega
  refine ⟨hdelay.trans (runsOut _), hsound.trans (runsOut _), fun tick lt => ?_, after_pulses h spared⟩
  obtain ⟨before, ticked, hbefore, hticked, hafter⟩ := after_of_lt h lt
  have running : tick < min ticks sound ↔ tick < sound := Nat.lt_min.trans (and_iff_right lt)
  simp only [running]
  have soFar : (b.course dice).SparesTimers (tick + 1) := fun earlier le =>
    spared earlier (Nat.lt_of_le_of_lt (Nat.le_of_lt_succ le) lt)
  obtain ⟨hpulse, reports⟩ := tick_pulse hbefore soFar hticked
  exact ⟨before, ticked, hbefore, hticked, hafter, hpulse, reports⟩

/-- Both timers run while a program waits for a key that is never pressed. The word behind the wait would set
the delay. -/
theorem timers_count_ticks_of_wait :
    let machine : Interpreter := { Interpreter.initial with
      memory := Memory.zeroed.writeSlice 0x200 [0xF0, 0x0A, 0xF0, 0x15]
      delay := 5
      sound := 2 }
    let settings : SchedulerSettings := { cyclesPerTick := 2 }
    let sinks : Sinks RecordingDisplay RecordingSound := ⟨{}, {}⟩
    let b : Bench Interpreter RecordingDisplay RecordingSound := ⟨.ofSettings settings, machine, sinks⟩
    let dice : Nat → Dice := fun _ _ => 0
    (b.course dice).SparesTimers 3 ∧
    ∃ last, b.after dice 3 = .ok last ∧ last.machine.delay.toNat = 2 ∧ last.machine.sound.toNat = 0 ∧
      last.sinks.sound.pulses = [settings.tone, settings.tone] := by
  intro machine settings sinks b dice
  have spared : (b.course dice).SparesTimers 3 := by decide +kernel
  have fits : (Frame.width - 1) * max settings.scale 1 < Word.limit := by decide
  obtain ⟨last, hlast⟩ := after_isOk_iff.mpr fun tick (_ : tick < 3) _ =>
    Display.isPlaced_of_fits (Machine.frame ((b.course dice).before (tick + 1))) fits
  obtain ⟨hdelay, hsound, -, hpulses⟩ := timers_count_ticks hlast spared
  exact ⟨spared, last, hlast, hdelay, hsound, congrArg RecordingSound.pulses hpulses⟩

end Bench

end Chip8Console
