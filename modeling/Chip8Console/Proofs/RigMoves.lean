import Chip8Console.Proofs.SessionMoves
import Chip8Console.Screen.Recording

/-!
A session manager at its queue and its sinks. What a tick asks of the sinks follows from the scheduler, the
machine and the bytes drawn; the screen decides no more than how the tick ends.
-/
namespace Chip8Console

inductive ScreenCall where
  | clear
  | paint (block : Block)
  | present
deriving DecidableEq, Repr

namespace ScreenCall
variable {D : Type} [Display D]

def perform (screen : D) : ScreenCall → D
  | clear => Display.clear screen
  | paint block => Display.paint screen block
  | present => (Display.present screen).2

/-- What is painted since the surface was last blanked. -/
def painted (before : List Block) : ScreenCall → List Block
  | clear => []
  | paint block => before ++ [block]
  | present => before

/-- After these calls, what was painted before them makes no difference. -/
def Settled (calls : List ScreenCall) : Prop :=
  ∀ before before' : List Block, calls.foldl painted before = calls.foldl painted before'

theorem settled_append {calls later : List ScreenCall} (h : Settled calls ∨ Settled later) :
    Settled (calls ++ later) := by
  intro before before'
  rw [List.foldl_append, List.foldl_append]
  rcases h with h | h
  · rw [h before before']
  · exact h _ _

def showing (blocks : List Block) : List ScreenCall := clear :: blocks.map paint ++ [present]

private theorem settled_showing (blocks : List Block) : Settled (showing blocks) := fun _ _ => rfl

end ScreenCall

namespace Display
variable {D : Type} [Display D]

private theorem showBlocks_fst (screen : D) (blocks : List Block) : (showBlocks screen blocks).1 =
    (present ((.clear :: blocks.map .paint : List ScreenCall).foldl ScreenCall.perform screen)).1 := by
  simp [showBlocks, ScreenCall.perform, List.foldl_map]

/-- Blocks are shown by blanking the surface, painting each of them and presenting. -/
theorem showBlocks_snd (screen : D) (blocks : List Block) : (showBlocks screen blocks).2 =
    (ScreenCall.showing blocks).foldl ScreenCall.perform screen := by
  simp [showBlocks, ScreenCall.showing, ScreenCall.perform, List.foldl_map]

/-- A picture is shown unless the corner of a block is out of range. -/
theorem showFrame_eq (screen : D) (frame : Frame) (scale : Nat) :
    showFrame screen frame scale =
      if ∀ block ∈ litBlocks frame.toList Frame.width scale, block.isPlaced = true then
        .ok (showBlocks screen (litBlocks frame.toList Frame.width scale))
      else .error .multiplication := by
  simp only [showFrame, showPixels, List.all_eq_true]
  exact if_neg fun h => absurd h.1 (by decide)

/-- Two screens that give the same answers from here on, whatever they show. -/
def AnswersAlike (screen screen' : D) : Prop :=
  ∀ calls : List ScreenCall, (present (calls.foldl ScreenCall.perform screen)).1 =
    (present (calls.foldl ScreenCall.perform screen')).1

/-- Screens that answer alike go on so, whatever is asked of both. -/
theorem AnswersAlike.after {screen screen' : D} (h : AnswersAlike screen screen')
    (calls : List ScreenCall) : AnswersAlike (calls.foldl ScreenCall.perform screen)
      (calls.foldl ScreenCall.perform screen') := by
  intro later
  rw [← List.foldl_append, ← List.foldl_append]
  exact h (calls ++ later)

end Display

def Sinks.after {D S : Type} [Display D] [Sound S] (sinks : Sinks D S) (calls : List ScreenCall)
    (tones : List Tone) : Sinks D S where
  display := calls.foldl ScreenCall.perform sinks.display
  sound := tones.foldl (fun sound tone => (Sound.pulse sound tone).1) sinks.sound

/-- What is asked of the sinks in two parts may be asked in one. -/
theorem Sinks.after_after {D S : Type} [Display D] [Sound S] (sinks : Sinks D S)
    (calls later : List ScreenCall) (tones others : List Tone) :
    (sinks.after calls tones).after later others = sinks.after (calls ++ later) (tones ++ others) := by
  simp [Sinks.after, List.foldl_append]

namespace Scheduler
variable {M D S : Type} [Machine M] [Display D] [Sound S] (s : Scheduler) (machine : M) (dice : Dice)

def repaints : Bool := s.repaint || (Machine.runBatch machine (dice.first s.cyclesPerTick)).redraw

/-- Whether a tick is to sound, the machine at its end and what its timers told. -/
def timed : Bool × M × Journal :=
  Machine.tickTimers (Machine.runBatch machine (dice.first s.cyclesPerTick)).machine

def blocks : List Block :=
  litBlocks (Machine.frame (s.timed machine dice).2.1).toList Frame.width s.scale

def screenCalls : List ScreenCall :=
  if s.repaints machine dice then ScreenCall.showing (s.blocks machine dice) else []

def tones : List Tone := if (s.timed machine dice).1 then [s.tone] else []

def answer (screen : D) : Except Cause Unit :=
  if s.repaints machine dice then (Display.showBlocks screen (s.blocks machine dice)).1 else .ok ()

def verdict : Except Cause Unit → Except ConsoleError TickOutcome
  | .ok () => .ok { redrawn := s.repaints machine dice, beeped := (s.timed machine dice).1 }
  | .error cause => .error (.terminal cause)

/-- Whether a tick can paint what it has to: the corners of the blocks are words. -/
def Paintable : Prop :=
  s.repaints machine dice = true → ∀ block ∈ s.blocks machine dice, block.isPlaced = true

variable {s machine dice}

/-- A tick that cannot paint what it has to is a fault. -/
theorem tick_unpaintable (h : ¬ s.Paintable machine dice) (sinks : Sinks D S) :
    s.tick machine sinks dice = .error .multiplication := by
  obtain ⟨redrawn, unplaced⟩ := Classical.not_imp.mp h
  have refused := (Display.showFrame_eq sinks.display _ s.scale).trans (if_neg unplaced)
  -- the tick spells the batch out where `repaints` names it
  change (s.repaint || _) = true at redrawn
  simp only [tick, redrawn, if_true]
  exact congrArg (· >>= _) refused

/-- The sinks have no part in a tick that can paint but for the answer of the screen. -/
theorem tick_paintable (h : s.Paintable machine dice) (sinks : Sinks D S) :
    ∃ journal, s.tick machine sinks dice = .ok
      { scheduler := s.counted
        machine := (s.timed machine dice).2.1
        sinks := sinks.after (s.screenCalls machine dice) (s.tones machine dice)
        result := s.verdict machine dice (s.answer machine dice sinks.display)
        journal } := by
  have painted : (if s.repaints machine dice then
        Display.showFrame sinks.display (Machine.frame (s.timed machine dice).2.1) s.scale
      else .ok (.ok (), sinks.display)) = .ok
        (s.answer machine dice sinks.display,
          (s.screenCalls machine dice).foldl ScreenCall.perform sinks.display) := by
    unfold answer screenCalls
    split
    · next redrawn =>
      rw [← Display.showBlocks_snd]
      exact (Display.showFrame_eq _ _ _).trans (if_pos (h redrawn))
    · rfl
  have sounded : (sinks.after [] (s.tones machine dice)).sound =
      (if (s.timed machine dice).1 then Sound.pulse sinks.sound s.tone else (sinks.sound, [])).1 := by
    unfold tones
    split <;> rfl
  obtain ⟨ticked, hticked⟩ : ∃ ticked, s.tick machine sinks dice = .ok ticked := by
    simp only [tick]
    split
    · next redrawn =>
      change s.repaints machine dice = true at redrawn
      rw [if_pos redrawn] at painted
      exact ArithmeticFault.bind_isOk painted ⟨_, rfl⟩
    · exact ⟨_, rfl⟩
  obtain ⟨result, display, hshown, shape⟩ := tick_inversion hticked
  obtain ⟨hresult, hdisplay⟩ := Prod.mk.inj (Except.ok.inj (painted.symm.trans hshown))
  refine ⟨ticked.journal, hticked.trans ?_⟩
  have after : sinks.after (s.screenCalls machine dice) (s.tones machine dice) =
      ⟨display, (sinks.after [] (s.tones machine dice)).sound⟩ :=
    congrArg (Sinks.mk · _) hdisplay
  rw [hresult, after, sounded, shape]
  cases result <;> rfl

/-- A tick that goes through could paint what it had to, and came to what `tick_paintable` says. -/
theorem tick_shape {sinks : Sinks D S} {ticked : Ticked M D S} (ran : s.tick machine sinks dice = .ok ticked) :
    s.Paintable machine dice ∧ ∃ journal, ticked =
      { scheduler := s.counted
        machine := (s.timed machine dice).2.1
        sinks := sinks.after (s.screenCalls machine dice) (s.tones machine dice)
        result := s.verdict machine dice (s.answer machine dice sinks.display)
        journal } := by
  by_cases paintable : s.Paintable machine dice
  · obtain ⟨journal, shape⟩ := tick_paintable paintable sinks
    exact ⟨paintable, journal, Except.ok.inj (ran.symm.trans shape)⟩
  · cases ran.symm.trans (tick_unpaintable paintable sinks)

variable (s machine dice)

/-- Whether a tick is a fault does not depend on the sinks. -/
theorem tick_uniform :
    (∃ fault, ∀ sinks : Sinks D S, s.tick machine sinks dice = .error fault) ∨
      ∀ sinks : Sinks D S, ∃ journal, s.tick machine sinks dice = .ok
        { scheduler := s.counted
          machine := (s.timed machine dice).2.1
          sinks := sinks.after (s.screenCalls machine dice) (s.tones machine dice)
          result := s.verdict machine dice (s.answer machine dice sinks.display)
          journal } := by
  by_cases h : s.Paintable machine dice
  · exact .inr (tick_paintable h)
  · exact .inl ⟨.multiplication, tick_unpaintable h⟩

omit [Sound S] in
/-- A tick is answered alike by screens that answer alike. -/
theorem answer_alike {screen screen' : D} (alike : Display.AnswersAlike screen screen') :
    s.answer machine dice screen = s.answer machine dice screen' := by
  unfold answer
  split
  · rw [Display.showBlocks_fst, Display.showBlocks_fst]
    exact alike _
  · rfl

/-- The first tick of a scheduler replaces whatever the screen shows. -/
theorem settled_screenCalls (first : s.repaint = true) :
    ScreenCall.Settled (s.screenCalls machine dice) := by
  unfold screenCalls repaints
  rw [first, Bool.true_or, if_pos rfl]
  exact ScreenCall.settled_showing _

end Scheduler

/-- Screens that refuse nothing: whatever is asked of one of them leads to another. -/
structure Display.Unfailing {D : Type} [Display D] (Willing : D → Prop) : Prop where
  clear {screen : D} (h : Willing screen) : Willing (Display.clear screen)
  paint {screen : D} (block : Block) (h : Willing screen) : Willing (Display.paint screen block)
  caption {screen : D} (text : String) (h : Willing screen) : Willing (Display.caption screen text)
  present {screen : D} (h : Willing screen) :
    (Display.present screen).1 = .ok () ∧ Willing (Display.present screen).2

namespace Display.Unfailing
variable {M D S : Type} [Display D] {Willing : D → Prop}

private theorem showFrame (unfailing : Unfailing Willing) {screen : D} (h : Willing screen) {frame : Frame}
    {scale : Nat} {shown : Except Cause Unit × D} (ok : Display.showFrame screen frame scale = .ok shown) :
    shown.1 = .ok () ∧ Willing shown.2 := by
  have painted (blocks : List Block) {screen : D} (h : Willing screen) :
      Willing (blocks.foldl Display.paint screen) := by
    induction blocks generalizing screen with
    | nil => exact h
    | cons block rest ih => exact ih (unfailing.paint block h)
  simp only [Display.showFrame, showPixels] at ok
  split at ok
  · cases ok
  · split at ok
    · cases ok
      exact unfailing.present (painted _ (unfailing.clear h))
    · cases ok

/-- On a screen that refuses nothing every tick reports what it did, and the screen still refuses nothing. -/
theorem tick [Machine M] [Sound S] (unfailing : Unfailing Willing) {s : Scheduler} {machine : M}
    {sinks : Sinks D S} {dice : Dice} {ticked : Scheduler.Ticked M D S} (h : Willing sinks.display)
    (ran : s.tick machine sinks dice = .ok ticked) :
    (∃ outcome, ticked.result = .ok outcome) ∧ Willing ticked.sinks.display := by
  obtain ⟨shown, display, hshown, rfl⟩ := Scheduler.tick_inversion ran
  split at hshown
  · obtain ⟨rfl, willing⟩ := unfailing.showFrame h hshown
    exact ⟨⟨_, rfl⟩, willing⟩
  · cases hshown
    exact ⟨⟨_, rfl⟩, h⟩

end Display.Unfailing

/-- A recording screen without refusals is one that refuses nothing. -/
theorem RecordingDisplay.unfailing :
    Display.Unfailing fun screen : RecordingDisplay => ∀ count, screen.refusal count = none where
  clear h := h
  paint _ h := h
  caption _ h := h
  present h := ⟨by simp only [Display.present, h _], h⟩

/-- A session manager with the queue of its ticks and the sinks that its ticks write to. -/
structure Rig (M D S : Type) where
  manager : SessionManager M
  queue : RefreshQueue
  sinks : Sinks D S

end Chip8Console
