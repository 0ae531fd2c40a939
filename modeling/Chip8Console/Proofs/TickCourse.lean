import Chip8Console.Machine.Scripted
import Chip8Console.Proofs.RigMoves
import Chip8Console.Proofs.SessionHistory

/-!
The course of a machine from tick to tick. The machine and the bytes that its cycles draw decide alone what
every tick paints and sounds; the flags raised inside a batch come to one repaint at its end.
-/
namespace Chip8Console

namespace Machine
variable {M : Type} [Machine M]

def cycled (machine : M) (dice : Dice) : Nat → M
  | 0 => machine
  | count + 1 => (cycle (cycled machine dice count) (dice count)).1

private theorem reaches_cycled (machine : M) (dice : Dice) (count : Nat) :
    Reaches machine (List.replicate count .cycle) (cycled machine dice count) := by
  induction count with
  | zero => exact .refl
  | succ count ih =>
    rw [List.replicate_succ']
    exact ih.cycle (dice count)

private theorem runBatch_concat (machine : M) (bytes : List UInt8) (byte : UInt8) :
    (runBatch machine (bytes ++ [byte])).machine = (cycle (runBatch machine bytes).machine byte).1 ∧
      (runBatch machine (bytes ++ [byte])).redraw = ((runBatch machine bytes).redraw ||
        pendingRedraw (cycle (runBatch machine bytes).machine byte).1) := by
  induction bytes generalizing machine with
  | nil => exact ⟨rfl, Bool.or_comm _ _⟩
  | cons first rest ih =>
    obtain ⟨hmachine, hredraw⟩ := ih (cycle machine first).1
    refine ⟨hmachine, ?_⟩
    simp only [List.cons_append, runBatch, hredraw, Bool.or_assoc]

/-- A batch runs its cycles, and its flag is raised by any cycle of it. -/
theorem runBatch_first (machine : M) (dice : Dice) (count : Nat) :
    (runBatch machine (dice.first count)).machine = cycled machine dice count ∧
      ((runBatch machine (dice.first count)).redraw = true ↔
        ∃ k < count, pendingRedraw (cycled machine dice (k + 1)) = true) := by
  induction count with
  | zero => exact ⟨rfl, by simp [Dice.first, runBatch]⟩
  | succ count ih =>
    have longer : dice.first (count + 1) = dice.first count ++ [dice count] := by
      simp only [Dice.first, List.range_succ, List.map_append, List.map_cons, List.map_nil]
    obtain ⟨hmachine, hredraw⟩ := runBatch_concat machine (dice.first count) (dice count)
    rw [← longer, ih.1] at hmachine hredraw
    refine ⟨hmachine, ?_⟩
    rw [hredraw, Bool.or_eq_true, ih.2, Nat.exists_lt_succ_right]
    rfl

end Machine

/-- A machine that is taken from tick to tick. -/
structure Course (M : Type) where
  machine : M
  /-- how many cycles a tick runs -/
  batch : Nat
  /-- the bytes drawn in each tick, counted from zero -/
  dice : Nat → Dice

namespace Course
variable {M : Type} [Machine M] (c : Course M)

def before : Nat → M
  | 0 => c.machine
  | tick + 1 => (Machine.tickTimers (Machine.cycled (before tick) (c.dice tick) c.batch)).2.1

/-- The machine inside a tick, after the first cycles of it. -/
def inside (tick count : Nat) : M := Machine.cycled (c.before tick) (c.dice tick) count

def sounds (tick : Nat) : Bool := (Machine.tickTimers (c.inside tick c.batch)).1

/-- Whether a repaint is pending after any cycle of a tick. -/
def Pending (tick : Nat) : Prop := ∃ k < c.batch, Machine.pendingRedraw (c.inside tick (k + 1)) = true

instance : DecidablePred c.Pending := fun _ => inferInstanceAs (Decidable (∃ k < c.batch, _))

def blocks (scale tick : Nat) : List Block :=
  litBlocks (Machine.frame (c.before (tick + 1))).toList Frame.width scale

/-- Where the step of the timers leaves the picture alone, a tick leaves it as after its last cycle. -/
theorem blocks_of_still (still : ∀ m : M, Machine.frame (Machine.tickTimers m).2.1 = Machine.frame m)
    (scale tick : Nat) :
    c.blocks scale tick = litBlocks (Machine.frame (c.inside tick c.batch)).toList Frame.width scale :=
  congrArg (fun frame : Frame => litBlocks frame.toList Frame.width scale) (still _)

/-- Before a tick the machine has been asked for the batches of the ticks so far, each followed by a step
of the timers. -/
theorem reaches_before (tick : Nat) :
    Machine.Reaches c.machine (List.replicate tick (List.replicate c.batch .cycle ++ [.timers])).flatten
      (c.before tick) := by
  induction tick with
  | zero => exact .refl
  | succ tick ih =>
    rw [List.replicate_succ', List.flatten_concat]
    exact ih.trans (Machine.reaches_cycled _ _ _).timers

end Course

namespace Scheduler

def later (s : Scheduler) (ticks : Nat) : Scheduler :=
  { s with
    ticks := s.ticks + ticks
    cycles := s.cycles + s.cyclesPerTick * ticks
    repaint := s.repaint && decide (ticks = 0) }

private theorem counted_later (s : Scheduler) (ticks : Nat) :
    (s.later ticks).counted = s.later (ticks + 1) := by
  simp only [later, counted, Nat.mul_succ, Nat.add_assoc, Nat.add_eq_zero_iff, Nat.one_ne_zero, and_false,
    decide_false, Bool.and_false]

end Scheduler

/-- A scheduler at work, with its machine and the sinks it writes to. -/
structure Bench (M D S : Type) where
  scheduler : Scheduler
  machine : M
  sinks : Sinks D S

namespace Bench
variable {M D S : Type}

def ofTicked (ticked : Scheduler.Ticked M D S) : Bench M D S :=
  ⟨ticked.scheduler, ticked.machine, ticked.sinks⟩

def course (b : Bench M D S) (dice : Nat → Dice) : Course M := ⟨b.machine, b.scheduler.cyclesPerTick, dice⟩

variable [Machine M] [Display D] [Sound S]

def tick (b : Bench M D S) (dice : Dice) : Except ArithmeticFault (Scheduler.Ticked M D S) :=
  b.scheduler.tick b.machine b.sinks dice

/-- The bench after so many ticks. A screen that refuses a picture stops none of them. -/
def after (b : Bench M D S) (dice : Nat → Dice) : Nat → Except ArithmeticFault (Bench M D S)
  | 0 => .ok b
  | ticks + 1 => do
    let before ← b.after dice ticks
    let ticked ← before.tick (dice ticks)
    return .ofTicked ticked

variable {b : Bench M D S} {dice : Nat → Dice} {ticks : Nat} {later : Bench M D S}

/-- The last of some ticks goes through on what those before it left. -/
theorem after_succ_eq_ok_iff : b.after dice (ticks + 1) = .ok later ↔
    ∃ before ticked, b.after dice ticks = .ok before ∧ before.tick (dice ticks) = .ok ticked ∧
      later = .ofTicked ticked := by
  simp only [after, ArithmeticFault.bind_eq_ok_iff]
  constructor
  · rintro ⟨before, hbefore, ticked, hticked, hlater⟩
    cases hlater
    exact ⟨before, ticked, hbefore, hticked, rfl⟩
  · rintro ⟨before, ticked, hbefore, hticked, rfl⟩
    exact ⟨before, hbefore, ticked, hticked, rfl⟩

/-- Of ticks that all go through each one does. -/
theorem after_of_lt {tick : Nat} (h : b.after dice ticks = .ok later) (lt : tick < ticks) :
    ∃ before ticked, b.after dice tick = .ok before ∧ before.tick (dice tick) = .ok ticked ∧
      b.after dice (tick + 1) = .ok (.ofTicked ticked) := by
  induction ticks generalizing later with
  | zero => cases lt
  | succ ticks ih =>
    obtain ⟨before, ticked, hbefore, hticked, rfl⟩ := after_succ_eq_ok_iff.mp h
    rcases Nat.lt_succ_iff_lt_or_eq.mp lt with earlier | rfl
    · exact ih hbefore earlier
    · exact ⟨before, ticked, hbefore, hticked, h⟩

/-- The sinks have no part in where the scheduler and the machine stand. -/
theorem after_course (h : b.after dice ticks = .ok later) :
    later.scheduler = b.scheduler.later ticks ∧ later.machine = (b.course dice).before ticks := by
  induction ticks generalizing later with
  | zero =>
    cases h
    simp [Scheduler.later, course, Course.before]
  | succ ticks ih =>
    obtain ⟨before, ticked, hbefore, hticked, rfl⟩ := after_succ_eq_ok_iff.mp h
    obtain ⟨hscheduler, hmachine⟩ := ih hbefore
    constructor
    · rw [← Scheduler.counted_later, ← hscheduler]
      exact Scheduler.tick_scheduler hticked
    · have hend := Scheduler.tick_machine hticked
      rw [(Machine.runBatch_first _ _ _).1, hmachine, hscheduler] at hend
      exact hend

variable (b dice) in
def Repaints (tick : Nat) : Prop :=
  (b.scheduler.repaint = true ∧ tick = 0) ∨ (b.course dice).Pending tick

instance : DecidablePred (b.Repaints dice) := fun _ => inferInstanceAs (Decidable (_ ∨ _))

variable (b dice) in
/-- Whether a tick can paint what it has to. -/
def Paintable (tick : Nat) : Prop :=
  b.Repaints dice tick → ∀ block ∈ (b.course dice).blocks b.scheduler.scale tick, block.isPlaced = true

section
variable (h : b.after dice ticks = .ok later)
include h

/-- What the timers tell in a tick is decided by the machine and the bytes drawn alone. -/
theorem timed_course : later.scheduler.timed later.machine (dice ticks) =
    Machine.tickTimers ((b.course dice).inside ticks (b.course dice).batch) := by
  obtain ⟨hscheduler, hmachine⟩ := after_course h
  simp only [Scheduler.timed, (Machine.runBatch_first _ _ _).1, hmachine, hscheduler]
  rfl

/-- Whether a tick paints is decided by the machine and the bytes drawn alone. -/
theorem repaints_course : later.scheduler.repaints later.machine (dice ticks) = true ↔
    b.Repaints dice ticks := by
  obtain ⟨hscheduler, hmachine⟩ := after_course h
  rw [Scheduler.repaints, Bool.or_eq_true, (Machine.runBatch_first _ _ _).2, hmachine, hscheduler]
  simp only [Scheduler.later, Bool.and_eq_true, decide_eq_true_eq]
  rfl

/-- What a tick paints is decided by the machine and the bytes drawn alone. -/
theorem blocks_course : later.scheduler.blocks later.machine (dice ticks) =
    (b.course dice).blocks b.scheduler.scale ticks := by
  rw [Scheduler.blocks, timed_course h, (after_course h).1]
  rfl

private theorem paintable_course :
    later.scheduler.Paintable later.machine (dice ticks) ↔ b.Paintable dice ticks := by
  rw [Scheduler.Paintable, repaints_course h, blocks_course h]
  rfl

/-- What a tick does to the sinks, and what it reports if the screen takes the picture. -/
theorem tick_course {ticked : Scheduler.Ticked M D S} (ran : later.tick (dice ticks) = .ok ticked) :
    ticked.sinks = later.sinks.after
        (if b.Repaints dice ticks then ScreenCall.showing ((b.course dice).blocks b.scheduler.scale ticks) else [])
        (if (b.course dice).sounds ticks then [b.scheduler.tone] else []) ∧
      ∀ outcome, ticked.result = .ok outcome → outcome =
        { redrawn := decide (b.Repaints dice ticks), beeped := (b.course dice).sounds ticks } := by
  obtain ⟨-, journal, rfl⟩ := Scheduler.tick_shape ran
  have redrawn : later.scheduler.repaints later.machine (dice ticks) = decide (b.Repaints dice ticks) := by
    rw [Bool.eq_iff_iff, repaints_course h, decide_eq_true_eq]
  have beeped : (later.scheduler.timed later.machine (dice ticks)).1 = (b.course dice).sounds ticks := by
    rw [timed_course h]
    rfl
  have tone : later.scheduler.tone = b.scheduler.tone := by rw [(after_course h).1]; rfl
  constructor
  · simp only [Scheduler.screenCalls, Scheduler.tones, redrawn, beeped, tone, blocks_course h,
      decide_eq_true_eq]
  · intro outcome reported
    unfold Scheduler.verdict at reported
    split at reported
    · rw [redrawn, beeped] at reported
      exact (Except.ok.inj reported).symm
    · cases reported

end

private theorem after_error {fault : ArithmeticFault} (h : b.after dice ticks = .error fault) :
    fault = .multiplication := by
  induction ticks with
  | zero => cases h
  | succ ticks ih =>
    rw [after] at h
    cases hbefore : b.after dice ticks with
    | error earlier =>
      rw [hbefore] at h
      cases h
      exact ih hbefore
    | ok before =>
      rw [hbefore] at h
      -- what is left is the tick and, behind it, nothing that fails
      change (before.scheduler.tick _ _ _ >>= _) = _ at h
      by_cases paintable : before.scheduler.Paintable before.machine (dice ticks)
      · obtain ⟨journal, shape⟩ := Scheduler.tick_paintable paintable before.sinks
        rw [shape] at h
        cases h
      · rw [Scheduler.tick_unpaintable paintable] at h
        cases h
        rfl

/-- So many ticks go through if each of them can paint what it has to. Otherwise they end in a fault. -/
theorem after_isOk_iff :
    (∃ later, b.after dice ticks = .ok later) ↔ ∀ tick < ticks, b.Paintable dice tick := by
  constructor
  · -- a fault would have ended the ticks before the last one
    rintro ⟨later, h⟩ tick lt
    obtain ⟨before, ticked, hbefore, hticked, -⟩ := after_of_lt h lt
    exact (paintable_course hbefore).mp (Scheduler.tick_shape hticked).1
  · intro paintable
    induction ticks with
    | zero => exact ⟨b, rfl⟩
    | succ ticks ih =>
      obtain ⟨before, hbefore⟩ := ih fun tick lt => paintable tick (Nat.lt_succ_of_lt lt)
      have last := (paintable_course hbefore).mpr (paintable ticks (Nat.lt_succ_self ticks))
      obtain ⟨journal, shape⟩ := Scheduler.tick_paintable last before.sinks
      exact ⟨_, after_succ_eq_ok_iff.mpr ⟨before, _, hbefore, shape, rfl⟩⟩

/-- A tick that cannot paint what it has to ends all ticks in a fault. -/
theorem after_of_unpaintable {tick : Nat} (lt : tick < ticks) (unpaintable : ¬ b.Paintable dice tick) :
    b.after dice ticks = .error .multiplication := by
  cases h : b.after dice ticks with
  | error fault => rw [after_error h]
  | ok later => exact absurd (after_isOk_iff.mp ⟨later, h⟩ tick lt) unpaintable

private theorem after_willing {Willing : D → Prop} (unfailing : Display.Unfailing Willing)
    (willing : Willing b.sinks.display) (h : b.after dice ticks = .ok later) :
    Willing later.sinks.display := by
  induction ticks generalizing later with
  | zero =>
    cases h
    exact willing
  | succ ticks ih =>
    obtain ⟨before, ticked, hbefore, hticked, rfl⟩ := after_succ_eq_ok_iff.mp h
    exact (unfailing.tick (ih hbefore) hticked).2

/-- Over every machine, all settings and bytes, on a display that never fails, and every number of ticks of a
new scheduler: unless a tick has to paint a block whose corner is out of range, which is a fault, all ticks go
through. Each of them runs its cycles and then the timers once. It clears the surface, paints the picture it
leaves and presents it once if it is the first or a repaint was pending after one of its cycles, and otherwise
leaves the screen alone. It sends a pulse where the timers ask for one, and reports these two facts. -/
theorem repaints_coalesce {Willing : D → Prop} (unfailing : Display.Unfailing Willing)
    (settings : SchedulerSettings) (machine : M) {sinks : Sinks D S} (willing : Willing sinks.display)
    (dice : Nat → Dice) :
    let start : Bench M D S := ⟨.ofSettings settings, machine, sinks⟩
    let course := start.course dice
    let count := max settings.cyclesPerTick 1
    let scale := max settings.scale 1
    (∀ tick, start.Repaints dice tick ↔
      tick = 0 ∨ ∃ k < count, Machine.pendingRedraw (course.inside tick (k + 1)) = true) ∧
    (∀ ticks, (∀ tick < ticks, start.Repaints dice tick →
        ∀ block ∈ course.blocks scale tick, block.isPlaced = true) →
      ∃ last, start.after dice ticks = .ok last ∧ last.machine = course.before ticks ∧
        Machine.Reaches machine
          (List.replicate ticks (List.replicate count .cycle ++ [.timers])).flatten last.machine ∧
        last.scheduler.ticks = ticks ∧ last.scheduler.cycles = count * ticks ∧
        ∀ tick < ticks, ∃ before ticked, start.after dice tick = .ok before ∧
          before.tick (dice tick) = .ok ticked ∧ start.after dice (tick + 1) = .ok (.ofTicked ticked) ∧
          ticked.sinks = before.sinks.after
            (if start.Repaints dice tick then ScreenCall.showing (course.blocks scale tick) else [])
            (if course.sounds tick then [settings.tone] else []) ∧
          ticked.result =
            .ok { redrawn := decide (start.Repaints dice tick), beeped := course.sounds tick }) ∧
    (∀ ticks, (∃ tick < ticks, start.Repaints dice tick ∧
        ∃ block ∈ course.blocks scale tick, block.isPlaced = false) →
      start.after dice ticks = .error .multiplication) ∧
    ((Frame.width - 1) * scale < Word.limit →
      ∀ tick, ∀ block ∈ course.blocks scale tick, block.isPlaced = true) ∧
    ((∀ m : M, Machine.frame (Machine.tickTimers m).2.1 = Machine.frame m) → ∀ tick, course.blocks scale tick =
      litBlocks (Machine.frame (course.inside tick count)).toList Frame.width scale) := by
  intro start course count scale
  refine ⟨fun tick => ?_, fun ticks placed => ?_, fun ticks ⟨tick, lt, repaints, block, mem, unplaced⟩ => ?_,
    fun fits tick => Display.isPlaced_of_fits _ fits, fun still => course.blocks_of_still still scale⟩
  · exact or_congr_left (and_iff_right rfl)
  · obtain ⟨last, hlast⟩ := after_isOk_iff.mpr placed
    obtain ⟨hscheduler, hmachine⟩ := after_course hlast
    refine ⟨last, hlast, hmachine, ?_, ?_, ?_, fun tick lt => ?_⟩
    · rw [hmachine]
      exact course.reaches_before ticks
    · rw [hscheduler]
      exact Nat.zero_add ticks
    · rw [hscheduler]
      exact Nat.zero_add _
    · obtain ⟨before, ticked, hbefore, hticked, hafter⟩ := after_of_lt hlast lt
      obtain ⟨hsinks, reports⟩ := tick_course hbefore hticked
      obtain ⟨⟨outcome, hresult⟩, -⟩ := unfailing.tick (after_willing unfailing willing hbefore) hticked
      refine ⟨before, ticked, hbefore, hticked, hafter, hsinks, ?_⟩
      rw [hresult, reports outcome hresult]
  · refine after_of_unpaintable lt fun paintable => ?_
    rw [paintable repaints block mem] at unplaced
    cases unplaced

/-- Of three ticks the first paints because it is the first, the second because of its first cycle but as
its last cycle leaves the picture, and the third not at all. -/
theorem repaints_coalesce_of_three :
    let Willing (screen : RecordingDisplay) : Prop := ∀ count, screen.refusal count = none
    let settings : SchedulerSettings := { cyclesPerTick := 2, scale := 3 }
    let machine : ScriptedMachine := { id := 1, redrawCycles := [3], beepTicks := [2] }
    let sinks : Sinks RecordingDisplay RecordingSound := ⟨{}, {}⟩
    let dice : Nat → Dice := fun _ _ => 0
    let start : Bench ScriptedMachine RecordingDisplay RecordingSound :=
      ⟨.ofSettings settings, machine, sinks⟩
    Display.Unfailing Willing ∧ Willing sinks.display ∧
    (Frame.width - 1) * max settings.scale 1 < Word.limit ∧
    (∀ m : ScriptedMachine, Machine.frame (Machine.tickTimers m).2.1 = Machine.frame m) ∧
    ∃ last, start.after dice 3 = .ok last ∧ last.scheduler.ticks = 3 ∧ last.scheduler.cycles = 6 ∧
      last.machine.cycles = 6 ∧ last.machine.timerTicks = 3 ∧
      ∃ before ticked, start.after dice 1 = .ok before ∧ before.tick (dice 1) = .ok ticked ∧
        ticked.sinks = before.sinks.after (ScreenCall.showing [⟨9, 0, 3⟩]) [settings.tone] ∧
        ticked.result = .ok { redrawn := true, beeped := true } ∧
        ∃ ticked', ticked'.sinks = ticked.sinks.after [] [] ∧
          (Bench.ofTicked ticked).tick (dice 2) = .ok ticked' ∧
          ticked'.result = .ok { redrawn := false, beeped := false } := by
  intro Willing settings machine sinks dice start
  have unfailing : Display.Unfailing Willing := RecordingDisplay.unfailing
  have willing : Willing sinks.display := fun _ => rfl
  have fits : (Frame.width - 1) * max settings.scale 1 < Word.limit := by decide
  have still (m : ScriptedMachine) : Machine.frame (Machine.tickTimers m).2.1 = Machine.frame m := rfl
  obtain ⟨-, goes, -, inRange, asAfterLast⟩ := repaints_coalesce unfailing settings machine willing dice
  obtain ⟨last, hlast, hmachine, -, hticks, hcycles, each⟩ := goes 3 fun tick _ _ => inRange fits tick
  obtain ⟨before, ticked, hbefore, hticked, hafter, hsinks, hresult⟩ := each 1 (by decide)
  obtain ⟨before', ticked', hbefore', hticked', -, hsinks', hresult'⟩ := each 2 (by decide)
  obtain rfl : before' = .ofTicked ticked := Except.ok.inj (hbefore'.symm.trans hafter)
  have flagged : start.Repaints dice 1 := by decide
  have unflagged : ¬ start.Repaints dice 2 := by decide
  have painted : (start.course dice).blocks (max settings.scale 1) 1 = [⟨9, 0, 3⟩] := by
    rw [asAfterLast still 1]
    decide +kernel
  rw [if_pos flagged, painted] at hsinks
  rw [if_neg unflagged] at hsinks'
  rw [decide_eq_true flagged] at hresult
  rw [decide_eq_false unflagged] at hresult'
  exact ⟨unfailing, willing, fits, still, last, hlast, hticks, hcycles, by rw [hmachine]; rfl,
    by rw [hmachine]; rfl, before, ticked, hbefore, hticked, hsinks, hresult, ticked', hsinks', hticked', hresult'⟩

/-- At a scale of half the range of words the third column lies outside, and a first tick that has to paint
there ends in a fault. -/
theorem large_scale_overflows :
    let Willing (screen : RecordingDisplay) : Prop := ∀ count, screen.refusal count = none
    let settings : SchedulerSettings := { cyclesPerTick := 3, scale := 0x8000000000000000 }
    let machine : ScriptedMachine := { id := 1 }
    let sinks : Sinks RecordingDisplay RecordingSound := ⟨{}, {}⟩
    let start : Bench ScriptedMachine RecordingDisplay RecordingSound :=
      ⟨.ofSettings settings, machine, sinks⟩
    Display.Unfailing Willing ∧ Willing sinks.display ∧ settings.scale < Word.limit ∧
    start.tick (fun _ => 0) = .error .multiplication := by
  intro Willing settings machine sinks start
  refine ⟨RecordingDisplay.unfailing, fun _ => rfl, by decide,
    Scheduler.tick_unpaintable (fun paintable => ?_) sinks⟩
  have unplaced : ¬ ∀ block ∈ start.scheduler.blocks machine (fun _ => 0), block.isPlaced = true := by
    decide +kernel
  exact unplaced (paintable rfl)

/-- A machine whose timers light the first pixel, which its cycles leave dark. -/
structure TimerLamp where
  lit : Bool := false

instance : Machine TimerLamp where
  cycle lamp _ := (lamp, [])
  pendingRedraw _ := false
  tickTimers _ := (false, ⟨true⟩, [])
  frame lamp := if lamp.lit then Frame.single ⟨0, by decide⟩ else Frame.blank
  load lamp _ := .ok (lamp, [])
  setKey lamp _ _ := (lamp, [])

/-- After the last cycle of the tick nothing is lit, and yet the tick paints a block: the picture it paints
is the one that the step of the timers leaves. -/
theorem timers_change_painted_picture :
    let dice : Nat → Dice := fun _ _ => 0
    let start : Bench TimerLamp RecordingDisplay RecordingSound := ⟨.ofSettings {}, {}, ⟨{}, {}⟩⟩
    litBlocks (Machine.frame ((start.course dice).inside 0 start.scheduler.cyclesPerTick)).toList
      Frame.width 1 = [] ∧
    (start.course dice).blocks 1 0 = [⟨0, 0, 1⟩] ∧
    ∃ ticked, start.tick (dice 0) = .ok ticked ∧
      ticked.sinks = start.sinks.after (ScreenCall.showing [⟨0, 0, 1⟩]) [] := by
  intro dice start
  have fresh : start.after dice 0 = .ok start := rfl
  have dark : litBlocks (Machine.frame ((start.course dice).inside 0 start.scheduler.cyclesPerTick)).toList
      Frame.width 1 = [] := by decide +kernel
  have lit : (start.course dice).blocks 1 0 = [⟨0, 0, 1⟩] := by decide +kernel
  have paintable : start.Paintable dice 0 := by
    intro _ block mem
    obtain rfl : block = ⟨0, 0, 1⟩ := List.mem_singleton.mp (lit ▸ mem)
    decide
  obtain ⟨journal, ran⟩ :=
    Scheduler.tick_paintable ((paintable_course fresh).mpr paintable) start.sinks
  refine ⟨dark, lit, _, ran, ?_⟩
  rw [(tick_course fresh ran).1]
  exact congrArg (start.sinks.after · []) (congrArg ScreenCall.showing lit)

end Bench

end Chip8Console
