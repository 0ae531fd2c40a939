import Mathlib.Tactic.ByContra
import Chip8Console.Proofs.TickCourse

/-!
The paint that a new scheduler owes its screen. The first tick tries it, and no later tick makes up for it: what
the screen answers has no part in which ticks paint.
-/
namespace Chip8Console

private theorem RecordingDisplay.showBlocks_asks (screen : RecordingDisplay) (blocks : List Block) :
    (Display.showBlocks screen blocks).1 =
        (match screen.refusal (screen.presents + 1) with
        | some cause => .error cause
        | none => .ok ()) ∧
      (Display.showBlocks screen blocks).2.presents = screen.presents + 1 ∧
      (Display.showBlocks screen blocks).2.refusal = screen.refusal := by
  have painted (screen : RecordingDisplay) : (blocks.foldl Display.paint screen).presents = screen.presents ∧
      (blocks.foldl Display.paint screen).refusal = screen.refusal := by
    induction blocks generalizing screen with
    | nil => exact ⟨rfl, rfl⟩
    | cons block rest ih => exact ih (Display.paint screen block)
  obtain ⟨presents, refusal⟩ := painted (Display.clear screen)
  simp only [Display.showBlocks, Display.present, presents, refusal]
  exact ⟨rfl, rfl, rfl⟩

private theorem Sinks.after_showing {S : Type} [Sound S] (sinks : Sinks RecordingDisplay S)
    (blocks : List Block) (tones : List Tone) :
    let shown := (sinks.after (ScreenCall.showing blocks) tones).display
    shown.presents = sinks.display.presents + 1 ∧ shown.refusal = sinks.display.refusal := by
  have asked := (sinks.display.showBlocks_asks blocks).2
  rw [Display.showBlocks_snd] at asked
  exact asked

namespace Bench
variable {M D S : Type} [Machine M] [Display D] [Sound S] {b : Bench M D S} {dice : Nat → Dice}
  {tick ticks : Nat} {before : Bench M D S} {ticked : Scheduler.Ticked M D S}

variable (b dice) in
/-- How a tick ends: with the refusal of the screen that it asked to show its picture, else with what it did. -/
def report (tick : Nat) (screen : D) : Except ConsoleError TickOutcome :=
  match if b.Repaints dice tick then
      (Display.showBlocks screen ((b.course dice).blocks b.scheduler.scale tick)).1
    else .ok () with
  | .ok () => .ok { redrawn := decide (b.Repaints dice tick), beeped := (b.course dice).sounds tick }
  | .error cause => .error (.terminal cause)

private theorem tick_report (h : b.after dice tick = .ok before)
    (ran : before.tick (dice tick) = .ok ticked) :
    ticked.result = b.report dice tick before.sinks.display := by
  obtain ⟨-, journal, rfl⟩ := Scheduler.tick_shape ran
  have redrawn : before.scheduler.repaints before.machine (dice tick) = decide (b.Repaints dice tick) := by
    rw [Bool.eq_iff_iff, repaints_course h, decide_eq_true_eq]
  have beeped : (before.scheduler.timed before.machine (dice tick)).1 = (b.course dice).sounds tick := by
    rw [timed_course h]
    rfl
  have answered : before.scheduler.answer before.machine (dice tick) before.sinks.display =
      if b.Repaints dice tick then
        (Display.showBlocks before.sinks.display ((b.course dice).blocks b.scheduler.scale tick)).1
      else .ok () := by
    simp only [Scheduler.answer, redrawn, blocks_course h, decide_eq_true_eq]
  rw [report, ← answered]
  cases before.scheduler.answer before.machine (dice tick) before.sinks.display with
  | ok done => simp only [Scheduler.verdict, redrawn, beeped]
  | error cause => rfl

variable (b dice) in
/-- Whether a tick painted: it says so, hence the screen took the picture. -/
def Paints (tick : Nat) : Prop :=
  ∃ before ticked outcome, b.after dice tick = .ok before ∧ before.tick (dice tick) = .ok ticked ∧
    ticked.result = .ok outcome ∧ outcome.redrawn = true

private theorem paints_iff (h : b.after dice tick = .ok before)
    (ran : before.tick (dice tick) = .ok ticked) :
    b.Paints dice tick ↔ b.Repaints dice tick ∧
      (Display.showBlocks before.sinks.display ((b.course dice).blocks b.scheduler.scale tick)).1 = .ok () := by
  constructor
  · rintro ⟨before', ticked', outcome, h', ran', told, redrawn⟩
    cases h.symm.trans h'
    cases ran.symm.trans ran'
    have repaints : b.Repaints dice tick := by
      rw [(tick_course h ran).2 outcome told] at redrawn
      exact of_decide_eq_true redrawn
    refine ⟨repaints, ?_⟩
    rw [tick_report h ran, report, if_pos repaints] at told
    split at told
    · assumption
    · cases told
  · rintro ⟨repaints, taken⟩
    have told := tick_report h ran
    rw [report, if_pos repaints, taken] at told
    exact ⟨before, ticked, _, h, ran, told, decide_eq_true repaints⟩

private theorem Paints.repaints (painted : b.Paints dice tick) : b.Repaints dice tick := by
  have ⟨_, _, _, h, ran, _⟩ := painted
  exact ((paints_iff h ran).mp painted).1

private theorem not_paints_of_refused {b before : Bench M RecordingDisplay S}
    {ticked : Scheduler.Ticked M RecordingDisplay S} (h : b.after dice tick = .ok before)
    (ran : before.tick (dice tick) = .ok ticked) {cause : Cause}
    (refused : before.sinks.display.refusal (before.sinks.display.presents + 1) = some cause) :
    ¬ b.Paints dice tick := by
  intro painted
  have taken := ((paints_iff h ran).mp painted).2
  rw [(RecordingDisplay.showBlocks_asks _ _).1, refused] at taken
  cases taken

omit [Display D] [Sound S] in
private theorem paintable_of_fits (fits : (Frame.width - 1) * b.scheduler.scale < Word.limit) (tick : Nat) :
    b.Paintable dice tick :=
  fun _ => Display.isPlaced_of_fits (Machine.frame ((b.course dice).before (tick + 1))) fits

variable (b dice) in
/-- Every one of so many ticks tries to paint, as long as none before it has painted. -/
def TriesUntilPainted (ticks : Nat) : Prop :=
  ∀ tick < ticks, (∀ earlier < tick, ¬ b.Paints dice earlier) → b.Repaints dice tick

omit [Display D] [Sound S] in
private theorem repaints_iff_of_new (new : b.scheduler.repaint = true) (tick : Nat) :
    b.Repaints dice tick ↔ tick = 0 ∨ (b.course dice).Pending tick :=
  or_congr_left (and_iff_right new)

private theorem triesUntilPainted_iff (new : b.scheduler.repaint = true) :
    b.TriesUntilPainted dice ticks ↔
      ∀ tick < ticks, tick ≠ 0 → ¬ (b.course dice).Pending tick → ∃ earlier < tick, b.Paints dice earlier := by
  constructor
  · intro tries tick lt later unflagged
    by_contra unpainted
    have due := tries tick lt fun earlier le painted => unpainted ⟨earlier, le, painted⟩
    rcases (repaints_iff_of_new new tick).mp due with first | flagged
    · exact later first
    · exact unflagged flagged
  · intro owed tick lt unpainted
    by_contra undue
    rw [repaints_iff_of_new new, not_or] at undue
    obtain ⟨earlier, le, painted⟩ := owed tick lt undue.1 undue.2
    exact unpainted earlier le painted

private theorem after_display (still : ∀ tick, b.Repaints dice tick ↔ tick = 0) (ticks : Nat)
    (h : b.after dice (ticks + 1) = .ok before) :
    before.sinks.display = (ScreenCall.showing ((b.course dice).blocks b.scheduler.scale 0)).foldl
      ScreenCall.perform b.sinks.display := by
  induction ticks generalizing before with
  | zero =>
    obtain ⟨start, ticked, hstart, ran, rfl⟩ := after_succ_eq_ok_iff.mp h
    obtain ⟨sinks, -⟩ := tick_course hstart ran
    cases hstart
    rw [if_pos ((still 0).mpr rfl)] at sinks
    exact congrArg Sinks.display sinks
  | succ ticks ih =>
    obtain ⟨last, ticked, hlast, ran, rfl⟩ := after_succ_eq_ok_iff.mp h
    obtain ⟨sinks, -⟩ := tick_course hlast ran
    rw [if_neg (mt (still _).mp (Nat.succ_ne_zero ticks))] at sinks
    exact (congrArg Sinks.display sinks).trans (ih hlast)

/-- Over every machine, all settings and bytes, every display with any answers, and every number of ticks of a
new scheduler: unless a tick has to paint a block whose corner is out of range, which is a fault, all ticks go
through. A tick asks the screen to show its picture if it is the first or a repaint was pending after one of its
cycles, whatever the screen answered before, and ends with the refusal if there is one. So every tick tries as
long as nothing has been painted exactly if each tick without a pending repaint, the first apart, comes after
one that painted; it is enough that the first does. Under a machine that never has a repaint pending, the screen
is asked once and never again. -/
theorem forced_paint_is_tried_once (settings : SchedulerSettings) (machine : M) (sinks : Sinks D S)
    (dice : Nat → Dice) :
    let start : Bench M D S := ⟨.ofSettings settings, machine, sinks⟩
    let course := start.course dice
    let scale := max settings.scale 1
    (∀ tick, start.Repaints dice tick ↔ tick = 0 ∨ course.Pending tick) ∧
    (∀ ticks, (∃ tick < ticks, ¬ start.Paintable dice tick) → start.after dice ticks = .error .multiplication) ∧
    (∀ ticks, (∀ tick < ticks, start.Paintable dice tick) →
      (∀ tick < ticks, ∃ before ticked, start.after dice tick = .ok before ∧
        before.tick (dice tick) = .ok ticked ∧ start.after dice (tick + 1) = .ok (.ofTicked ticked) ∧
        ticked.sinks = before.sinks.after
          (if start.Repaints dice tick then ScreenCall.showing (course.blocks scale tick) else [])
          (if course.sounds tick then [settings.tone] else []) ∧
        ticked.result = start.report dice tick before.sinks.display) ∧
      (start.TriesUntilPainted dice ticks ↔
        ∀ tick < ticks, tick ≠ 0 → ¬ course.Pending tick → ∃ earlier < tick, start.Paints dice earlier) ∧
      (start.Paints dice 0 → start.TriesUntilPainted dice ticks)) ∧
    ((∀ tick, ¬ course.Pending tick) → start.Paintable dice 0 →
      (start.Paints dice 0 ↔ (Display.showBlocks sinks.display (course.blocks scale 0)).1 = .ok ()) ∧
      (∀ tick, start.Paints dice tick → tick = 0) ∧
      ∀ ticks, ∃ last, start.after dice (ticks + 1) = .ok last ∧
        last.sinks.display = (ScreenCall.showing (course.blocks scale 0)).foldl ScreenCall.perform
          sinks.display) := by
  intro start course scale
  have repaints : ∀ tick, start.Repaints dice tick ↔ tick = 0 ∨ course.Pending tick := repaints_iff_of_new rfl
  refine ⟨repaints, fun ticks ⟨tick, lt, unpaintable⟩ => after_of_unpaintable lt unpaintable,
    fun ticks paintable => ⟨fun tick lt => ?_, triesUntilPainted_iff rfl, fun painted => ?_⟩,
    fun still paintable => ?_⟩
  · obtain ⟨last, hlast⟩ := after_isOk_iff.mpr paintable
    obtain ⟨before, ticked, hbefore, hticked, hafter⟩ := after_of_lt hlast lt
    exact ⟨before, ticked, hbefore, hticked, hafter, (tick_course hbefore hticked).1, tick_report hbefore hticked⟩
  · apply (triesUntilPainted_iff rfl).mpr
    intro tick _ later _
    exact ⟨0, Nat.pos_of_ne_zero later, painted⟩
  · have first (tick : Nat) : start.Repaints dice tick ↔ tick = 0 := by
      rw [repaints, or_iff_left (still tick)]
    have goes (ticks : Nat) : ∃ last, start.after dice (ticks + 1) = .ok last := by
      apply after_isOk_iff.mpr
      intro tick _ due
      obtain rfl := (first tick).mp due
      exact paintable due
    obtain ⟨painted, hpainted⟩ := goes 0
    obtain ⟨before, ticked, hbefore, hticked, -⟩ := after_of_lt hpainted (Nat.lt_succ_self 0)
    cases hbefore
    refine ⟨(paints_iff rfl hticked).trans (and_iff_right ((first 0).mpr rfl)),
      fun tick painted => (first tick).mp painted.repaints, fun ticks => ?_⟩
    · obtain ⟨last, hlast⟩ := goes ticks
      exact ⟨last, hlast, after_display first ticks hlast⟩

/-- The first picture is refused. The second tick leaves the screen alone, and the third paints because the fifth
cycle has a repaint pending. -/
theorem forced_paint_is_tried_once_of_refused :
    let cause : Cause := .other "screen gone"
    let screen : RecordingDisplay := { refusal := fun count => if count = 1 then some cause else none }
    let settings : SchedulerSettings := { cyclesPerTick := 2 }
    let machine : ScriptedMachine := { id := 1, redrawCycles := [5] }
    let sinks : Sinks RecordingDisplay RecordingSound := ⟨screen, {}⟩
    let dice : Nat → Dice := fun _ _ => 0
    let start : Bench ScriptedMachine RecordingDisplay RecordingSound := ⟨.ofSettings settings, machine, sinks⟩
    (∀ tick < 3, start.Paintable dice tick) ∧ ¬ start.TriesUntilPainted dice 3 ∧
    ∃ first second third, start.tick (dice 0) = .ok first ∧ first.result = .error (.terminal cause) ∧
      (ofTicked first).tick (dice 1) = .ok second ∧ second.sinks = first.sinks ∧
      second.result = .ok { redrawn := false, beeped := false } ∧
      (ofTicked second).tick (dice 2) = .ok third ∧ third.sinks.display.presents = 2 ∧
      third.result = .ok { redrawn := true, beeped := false } := by
  intro cause screen settings machine sinks dice start
  have paintable : ∀ tick < 3, start.Paintable dice tick := fun tick _ => paintable_of_fits (by decide) tick
  have due : start.Repaints dice 0 ∧ ¬ start.Repaints dice 1 ∧ start.Repaints dice 2 := by decide
  obtain ⟨repaints, -, goes, -⟩ := forced_paint_is_tried_once settings machine sinks dice
  obtain ⟨each, tries, -⟩ := goes 3 paintable
  have silent : (start.course dice).sounds 0 = false ∧ (start.course dice).sounds 1 = false ∧
      (start.course dice).sounds 2 = false := by decide
  obtain ⟨_, first, hstart, hfirst, afterFirst, sinks₁, told₁⟩ := each 0 (by decide)
  cases hstart
  obtain ⟨_, second, hbefore, hsecond, afterSecond, sinks₂, told₂⟩ := each 1 (by decide)
  cases hbefore.symm.trans afterFirst
  obtain ⟨_, third, hbefore', hthird, -, sinks₃, told₃⟩ := each 2 (by decide)
  cases hbefore'.symm.trans afterSecond
  rw [if_pos due.1, silent.1, if_neg Bool.false_ne_true] at sinks₁
  rw [if_neg due.2.1, silent.2.1, if_neg Bool.false_ne_true] at sinks₂
  rw [if_pos due.2.2, silent.2.2, if_neg Bool.false_ne_true] at sinks₃
  have asked₁ : first.sinks.display.presents = 1 ∧ first.sinks.display.refusal = screen.refusal := by
    rw [sinks₁]
    exact Sinks.after_showing _ _ _
  have kept : second.sinks = first.sinks := sinks₂
  have asked₃ : third.sinks.display.presents = second.sinks.display.presents + 1 := by
    rw [sinks₃]
    exact (Sinks.after_showing _ _ _).1
  rw [kept, asked₁.1] at asked₃
  have lost : ¬ start.TriesUntilPainted dice 3 := by
    rw [tries]
    intro owed
    have unflagged : ¬ (start.course dice).Pending 1 := fun flagged => due.2.1 ((repaints 1).mpr (.inr flagged))
    obtain ⟨earlier, lt, painted⟩ := owed 1 (by decide) (by decide) unflagged
    obtain rfl := Nat.lt_one_iff.mp lt
    exact not_paints_of_refused rfl hfirst rfl painted
  refine ⟨paintable, lost, first, second, third, hfirst, ?_, hsecond, kept, ?_, hthird, asked₃, ?_⟩
  · rw [told₁, report, if_pos due.1, (RecordingDisplay.showBlocks_asks _ _).1]
    rfl
  · rw [told₂, report, if_neg due.2.1, silent.2.1, decide_eq_false due.2.1]
  · have another : (ofTicked second).sinks = first.sinks := kept
    rw [told₃, another, report, if_pos due.2.2, (RecordingDisplay.showBlocks_asks _ _).1, asked₁.1, asked₁.2,
      silent.2.2, decide_eq_true due.2.2]
    rfl

/-- Where the screen refuses the first picture and the machine never has a repaint pending, the second tick asks
for nothing although nothing has been painted. -/
theorem refused_first_paint_lost :
    let cause : Cause := .other "screen gone"
    let screen : RecordingDisplay := { refusal := fun count => if count = 1 then some cause else none }
    let settings : SchedulerSettings := { cyclesPerTick := 2 }
    let machine : ScriptedMachine := { id := 1 }
    let sinks : Sinks RecordingDisplay RecordingSound := ⟨screen, {}⟩
    let dice : Nat → Dice := fun _ _ => 0
    let start : Bench ScriptedMachine RecordingDisplay RecordingSound := ⟨.ofSettings settings, machine, sinks⟩
    ¬ start.TriesUntilPainted dice 2 ∧ ¬ start.Paints dice 0 ∧
    ∃ last, start.after dice 2 = .ok last ∧ last.sinks.display.presents = 1 := by
  intro cause screen settings machine sinks dice start
  have paintable : ∀ tick < 2, start.Paintable dice tick := fun tick _ => paintable_of_fits (by decide) tick
  obtain ⟨last, hlast⟩ := after_isOk_iff.mpr paintable
  have due : start.Repaints dice 0 ∧ ¬ start.Repaints dice 1 := by decide
  obtain ⟨_, first, hstart, hfirst, afterFirst⟩ := after_of_lt hlast (Nat.zero_lt_succ 1)
  cases hstart
  obtain ⟨_, second, hbefore, hsecond, afterSecond⟩ := after_of_lt hlast (Nat.lt_succ_self 1)
  cases hbefore.symm.trans afterFirst
  cases hlast.symm.trans afterSecond
  have unpainted : ¬ start.Paints dice 0 := not_paints_of_refused rfl hfirst rfl
  refine ⟨fun tries => ?_, unpainted, ofTicked second, hlast, ?_⟩
  · refine due.2 (tries 1 (Nat.lt_succ_self 1) fun earlier lt => ?_)
    rw [Nat.lt_one_iff.mp lt]
    exact unpainted
  · have sinks₁ := (tick_course rfl hfirst).1
    have sinks₂ := (tick_course hbefore hsecond).1
    rw [if_pos due.1] at sinks₁
    rw [if_neg due.2] at sinks₂
    have asked : first.sinks.display.presents = 1 := by
      rw [sinks₁]
      exact (Sinks.after_showing _ _ _).1
    exact (congrArg (fun sinks => sinks.display.presents) sinks₂).trans asked

end Bench

end Chip8Console
