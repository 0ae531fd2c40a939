import Chip8Console.Machine.Interpreter
import Chip8Console.Proofs.ConsoleMoves
import Chip8Console.Proofs.InstructionEffects
import Chip8Console.Screen.Recording

/-!
The screen and the machine it shows. Most ticks paint nothing, and still the screen never lags: an
instruction that changes the picture says so, the ticks of a batch lose none of this, and the first tick
of a session paints in any case.
-/
namespace Chip8Console

namespace Interpreter

private theorem cycle_frame {s : Interpreter} {random : UInt8} (quiet : (s.cycle random).1.redraw = false) :
    (s.cycle random).1.frame = s.frame := by
  unfold cycle at quiet ⊢
  cases hword : Instruction.decode? s.nextWord with
  | none => rfl
  | some i =>
    rw [hword] at quiet
    exact (s.fetched.execute_effect random i).frame_of_quiet quiet

/-- A batch after none of whose cycles a repaint was pending leaves the picture as it is. -/
theorem runBatch_frame {s : Interpreter} {bytes : List UInt8}
    (quiet : (Machine.runBatch s bytes).redraw = false) :
    (Machine.runBatch s bytes).machine.frame = s.frame := by
  induction bytes generalizing s with
  | nil => rfl
  | cons byte bytes ih =>
    obtain ⟨hfirst, hrest⟩ := Bool.or_eq_false_iff.mp quiet
    exact (ih hrest).trans (cycle_frame hfirst)

end Interpreter

/-- The blocks of a picture are those of its lit pixels, in the order of their places. -/
theorem litBlocks_frame (frame : Frame) (scale : Nat) :
    litBlocks frame.toList Frame.width scale =
      ((List.finRange Frame.size).filter frame.isLit).map fun place =>
        ⟨place % 64 * scale, place / 64 * scale, scale⟩ := by
  have hplaces : frame.toList.zipIdx =
      (List.finRange Frame.size).map fun place => (frame[place], place.val) := by
    apply List.ext_getElem
    · simp
    · intro i _ _
      simp
  rw [litBlocks, hplaces, List.filterMap_map, ← List.filterMap_eq_map, List.filterMap_filter]
  congr 1
  funext place
  by_cases hdark : frame[place.val] = 0
  · simp [Frame.isLit, hdark]
  · simp [Frame.isLit, hdark, Frame.width]

/-- A screen of which it is known what was painted on it since it was last blanked, and from when on it
refuses nothing. -/
class PaintedDisplay (D : Type) extends Display D where
  painted : D → List Block
  Willing : D → Prop
  clear_painted {d : D} (h : Willing d) : painted (clear d) = [] ∧ Willing (clear d)
  paint_painted {d : D} (b : Block) (h : Willing d) :
    painted (paint d b) = painted d ++ [b] ∧ Willing (paint d b)
  present_painted {d : D} (h : Willing d) :
    (present d).1 = .ok () ∧ painted (present d).2 = painted d ∧ Willing (present d).2
  caption_painted {d : D} (text : String) (h : Willing d) :
    painted (caption d text) = painted d ∧ Willing (caption d text)

instance : PaintedDisplay RecordingDisplay where
  painted d := d.blocks.toList
  Willing d := ∀ count, d.refusal count = none
  clear_painted h := ⟨rfl, h⟩
  paint_painted b h := ⟨Array.toList_push, h⟩
  present_painted {d} h := ⟨by simp only [Display.present, h], rfl, h⟩
  caption_painted _ h := ⟨rfl, h⟩

namespace PaintedDisplay
variable {D : Type} [PaintedDisplay D]

private theorem foldl_paint {d : D} (h : Willing d) (blocks : List Block) :
    painted (blocks.foldl Display.paint d) = painted d ++ blocks ∧
      Willing (blocks.foldl Display.paint d) := by
  induction blocks generalizing d with
  | nil => exact ⟨(List.append_nil _).symm, h⟩
  | cons b rest ih =>
    obtain ⟨hpainted, hwilling⟩ := paint_painted b h
    obtain ⟨hall, hlast⟩ := ih hwilling
    exact ⟨by rw [List.foldl_cons, hall, hpainted, List.append_assoc]; rfl, hlast⟩

private theorem showBlocks_painted {d : D} (h : Willing d) (blocks : List Block) :
    (Display.showBlocks d blocks).1 = .ok () ∧ painted (Display.showBlocks d blocks).2 = blocks ∧
      Willing (Display.showBlocks d blocks).2 := by
  obtain ⟨hclear, hblank⟩ := clear_painted h
  obtain ⟨hall, hpainted⟩ := foldl_paint hblank blocks
  obtain ⟨hshown, hsame, hpresented⟩ := present_painted hpainted
  refine ⟨hshown, ?_, hpresented⟩
  exact hsame.trans (hall.trans (by rw [hclear, List.nil_append]))

private theorem showFrame_painted {d : D} (h : Willing d) {frame : Frame} {scale : Nat}
    {shown : Except Cause Unit × D} (hshown : Display.showFrame d frame scale = .ok shown) :
    shown.1 = .ok () ∧ painted shown.2 = litBlocks frame.toList Frame.width scale ∧
      Willing shown.2 := by
  simp only [Display.showFrame, Display.showPixels] at hshown
  split at hshown
  · cases hshown
  · split at hshown
    · cases hshown
      exact showBlocks_painted h _
    · cases hshown

end PaintedDisplay

/-- What is painted is the picture of the machine, at this scale. -/
def Shows {D : Type} [PaintedDisplay D] (display : D) (machine : Interpreter) (scale : Nat) : Prop :=
  PaintedDisplay.painted display = litBlocks machine.frame.toList Frame.width scale

private theorem Scheduler.tick_shows {D S : Type} [PaintedDisplay D] [Sound S] {s : Scheduler}
    {machine : Interpreter} {sinks : Sinks D S} {dice : Dice} {ticked : Ticked Interpreter D S}
    (h : s.tick machine sinks dice = .ok ticked) (willing : PaintedDisplay.Willing sinks.display)
    (current : s.repaint = true ∨ Shows sinks.display machine s.scale) :
    (∃ outcome, ticked.result = .ok outcome) ∧ PaintedDisplay.Willing ticked.sinks.display ∧
      Shows ticked.sinks.display ticked.machine s.scale := by
  obtain ⟨shown, display, hshown, rfl⟩ := tick_inversion h
  split at hshown
  · obtain ⟨hok, hpainted, hwilling⟩ := PaintedDisplay.showFrame_painted willing hshown
    cases hok
    exact ⟨⟨_, rfl⟩, hwilling, hpainted⟩
  · next kept =>
    cases hshown
    obtain ⟨hrepaint, hredraw⟩ := Bool.or_eq_false_iff.mp (Bool.eq_false_iff.mpr kept)
    rw [hrepaint] at current
    refine ⟨⟨_, rfl⟩, willing, ?_⟩
    have hframe := Interpreter.runBatch_frame hredraw
    have hcurrent := current.resolve_left nofun
    unfold Shows at hcurrent ⊢
    rw [hcurrent, ← hframe]
    rfl

namespace Environment
variable {D S : Type} [PaintedDisplay D] [Sound S]

omit [Sound S] in
private theorem report_display {M : Type} (env : Environment M D S) (e : ConsoleError)
    (h : PaintedDisplay.Willing env.sinks.display) :
    PaintedDisplay.painted (env.report e).1.sinks.display =
        PaintedDisplay.painted env.sinks.display ∧
      PaintedDisplay.Willing (env.report e).1.sinks.display := by
  obtain ⟨hcaption, hcaptioned⟩ := PaintedDisplay.caption_painted e.message h
  obtain ⟨-, hpresent, hpresented⟩ := PaintedDisplay.present_painted hcaptioned
  exact ⟨hpresent.trans hcaption, hpresented⟩

omit [Sound S] in
private theorem finishLoad_display {M : Type} [Machine M] (env : Environment M D S) (load : LoadResult)
    (h : PaintedDisplay.Willing env.sinks.display) :
    PaintedDisplay.painted (env.finishLoad load).1.sinks.display =
        PaintedDisplay.painted env.sinks.display ∧
      PaintedDisplay.Willing (env.finishLoad load).1.sinks.display := by
  simp only [finishLoad]
  split
  · split
    · exact PaintedDisplay.caption_painted _ h
    · exact ⟨rfl, h⟩
  · exact ⟨rfl, h⟩
  · exact report_display _ _ h

/-- The tick of the session is on its way, and unless it will paint the picture in any case, the picture
is painted. While ticks run, the session's own has either run or is still to come. -/
def Due (env : Environment Interpreter D S) (s : Session Interpreter) : Phase → Prop
  | .listening =>
    s.token ∈ env.refresh.fire.1 ∧ Shows env.sinks.display s.machine s.scheduler.scale
  | .delivering _ =>
    s.token ∈ env.refresh.fire.1 ∧
      (s.scheduler.repaint = true ∨ Shows env.sinks.display s.machine s.scheduler.scale)
  | .ticking due =>
    (s.token ∈ due ∧
      (s.scheduler.repaint = true ∨ Shows env.sinks.display s.machine s.scheduler.scale)) ∨
    (s.token ∈ env.refresh.fire.1 ∧ Shows env.sinks.display s.machine s.scheduler.scale)

/-- What of a session decides what the screen is to show, and when. -/
def outline (s : Session Interpreter) : Token × Frame × Scheduler :=
  (s.token, s.machine.frame, s.scheduler)

/-- What holds between any two acts on a console whose screen refuses nothing. -/
structure Agreement (env : Environment Interpreter D S) (phase : Phase) : Prop where
  willing : PaintedDisplay.Willing env.sinks.display
  live : ∀ s, env.sessions.session = some s →
    env.sessions.tokens.active = some s.token ∧ env.Due s phase

omit [Sound S] in
private theorem Agreement.quiet {env env' : Environment Interpreter D S} {phase : Phase}
    (h : Agreement env phase) (tokens : env'.sessions.tokens = env.sessions.tokens)
    (refresh : env'.refresh = env.refresh)
    (display : PaintedDisplay.painted env'.sinks.display = PaintedDisplay.painted env.sinks.display ∧
      PaintedDisplay.Willing env'.sinks.display)
    (session : env'.sessions.session.map outline = env.sessions.session.map outline) :
    Agreement env' phase := by
  refine ⟨display.2, fun s' hs' => ?_⟩
  rw [hs'] at session
  obtain ⟨s, hs, houtline⟩ := Option.map_eq_some_iff.mp session.symm
  simp only [outline, Prod.mk.injEq] at houtline
  obtain ⟨htoken, hframe, hscheduler⟩ := houtline
  obtain ⟨hactive, hdue⟩ := h.live s hs
  have hshows : Shows env.sinks.display s.machine s'.scheduler.scale ↔
      Shows env'.sinks.display s'.machine s'.scheduler.scale := by
    unfold Shows
    rw [display.1, hframe]
  refine ⟨by rw [tokens, ← htoken, hactive], ?_⟩
  cases phase <;> simpa only [Due, hshows, htoken, hscheduler, refresh] using hdue

omit [Sound S] in
private theorem Agreement.deliver {env : Environment Interpreter D S} {load : LoadResult}
    {rest : List LoadResult} (h : Agreement env (.delivering (load :: rest))) :
    Agreement (env.finishLoad load).1 (.delivering rest) := by
  have display := finishLoad_display env load h.willing
  have sessions := finishLoad_sessions env load
  have refresh := finishLoad_refresh env load
  have finished : Agreement env (.delivering rest) := ⟨h.willing, h.live⟩
  generalize hdone : env.sessions.completeLoad load.1 load.2 env.refresh = done at sessions refresh
  cases SessionManager.completeLoad_completion hdone with
  | superseded | missing | refused =>
    exact finished.quiet (by rw [sessions]) refresh display (by rw [sessions])
  | activated rom machine loaded notices wanted came taken =>
    refine ⟨display.2, fun s hs => ?_⟩
    rw [sessions] at hs ⊢
    cases hs
    refine ⟨rfl, ?_, .inl rfl⟩
    rw [refresh]
    simp [RefreshHost.request, RefreshQueue.request, RefreshQueue.fire]

private theorem Agreement.tick_shows {env : Environment Interpreter D S} {due : List Token}
    (h : Agreement env (.ticking due)) {token : Token} {s : Session Interpreter} {dice : Dice}
    {ticked : Scheduler.Ticked Interpreter D S} (live : env.sessions.live? token = some s)
    (hticked : s.scheduler.tick s.machine env.sinks dice = .ok ticked) :
    (∃ outcome, ticked.result = .ok outcome) ∧ PaintedDisplay.Willing ticked.sinks.display ∧
      Shows ticked.sinks.display ticked.machine s.scheduler.scale := by
  obtain ⟨-, hdue⟩ := h.live s (SessionManager.live?_eq_some_iff.mp live).1
  apply Scheduler.tick_shows hticked h.willing
  rcases hdue with ⟨-, hcurrent⟩ | ⟨-, hshows⟩
  · exact hcurrent
  · exact .inr hshows

private theorem Agreement.act {env env' : Environment Interpreter D S} {phase phase' : Phase}
    {deeds : List Deed} (h : Agreement env phase) (act : Act env phase deeds env' phase') :
    Agreement env' phase' := by
  cases act with
  | select request => exact h.quiet rfl rfl (PaintedDisplay.caption_painted _ h.willing) rfl
  | key c pressed =>
    generalize hafter : env.sessions.keyEvent c pressed = after
    cases SessionManager.keyEvent_keying hafter with
    | kept => exact h.quiet rfl rfl ⟨rfl, h.willing⟩ rfl
    | forwarded key s changed running =>
      refine h.quiet rfl rfl ⟨rfl, h.willing⟩ ?_
      rw [running]
      rfl
  | report e => exact h.quiet rfl rfl (report_display env e h.willing) rfl
  | work answer ticket request rest waiting => exact h.quiet rfl rfl ⟨rfl, h.willing⟩ rfl
  | collect =>
    refine ⟨h.willing, fun s hs => ?_⟩
    obtain ⟨hactive, hwaits, hshows⟩ := h.live s hs
    exact ⟨hactive, hwaits, .inr hshows⟩
  | deliver load rest => exact h.deliver
  | fire =>
    refine ⟨h.willing, fun s hs => ?_⟩
    obtain ⟨hactive, hdue⟩ := h.live s hs
    exact ⟨hactive, .inl hdue⟩
  | tick token rest dice ran status hran result =>
    cases SessionManager.onTick_delivery hran with
    | stale dead =>
      refine ⟨h.willing, fun s hs => ?_⟩
      obtain ⟨hactive, hdue⟩ := h.live s hs
      have hne : s.token ≠ token := by
        rintro rfl
        exact absurd (SessionManager.live?_eq_some_iff.mpr ⟨hs, hactive, rfl⟩) (dead ▸ nofun)
      refine ⟨hactive, hdue.imp_left fun hhead => ⟨?_, hhead.2⟩⟩
      exact (List.mem_cons.mp hhead.1).resolve_left hne
    | failed s ticked e live hticked hresult => cases result
    | ran s ticked outcome live hticked hresult =>
      obtain ⟨-, hwilling, hshows⟩ := h.tick_shows live hticked
      obtain ⟨running, hactive, rfl⟩ := SessionManager.live?_eq_some_iff.mp live
      refine ⟨hwilling, fun s' hs' => ?_⟩
      cases hs'
      refine ⟨hactive, .inr ⟨?_, ?_⟩⟩
      · simp [RefreshHost.request, RefreshQueue.request, RefreshQueue.fire]
      · rw [Scheduler.tick_scheduler hticked]
        exact hshows
  | fail token rest dice ran e hran result =>
    cases SessionManager.onTick_delivery hran with
    | stale dead => cases result
    | ran s ticked outcome live hticked hresult => cases result
    | failed s ticked e live hticked hresult =>
      obtain ⟨⟨outcome, hok⟩, -⟩ := h.tick_shows live hticked
      rw [hok] at hresult
      cases hresult
  | rest =>
    refine ⟨h.willing, fun s hs => ?_⟩
    obtain ⟨hactive, hdue⟩ := h.live s hs
    exact ⟨hactive, hdue.resolve_left fun hhead => List.not_mem_nil hhead.1⟩
  | teardown => exact ⟨h.willing, fun s hs => nomatch hs⟩

/-- Over every run of interpreted programs on a screen that refuses nothing, at every point between two
calls and so after every step: while a session runs, what is painted is the picture of its machine, a
block for each lit pixel and row by row. Whether the last step painted it, found it painted or changed
the session makes no difference. While the blocks of the picture have words for corners, no step ends in
a fault. -/
theorem screen_agrees {factory : Nat → Interpreter} {settings : SchedulerSettings} {keys : KeyTable}
    {catalog : List String} {sinks : Sinks D S} {env : Environment Interpreter D S}
    {deeds : List Deed} (willing : PaintedDisplay.Willing sinks.display)
    (run : Run (new factory settings keys catalog sinks) env deeds) :
    (∀ s, env.sessions.session = some s →
      PaintedDisplay.painted env.sinks.display =
        ((List.finRange Frame.size).filter s.machine.frame.isLit).map fun place =>
          ⟨place % 64 * max settings.scale 1, place / 64 * max settings.scale 1,
            max settings.scale 1⟩) ∧
    ((Frame.width - 1) * max settings.scale 1 < Word.limit →
      ∀ (answer : RomRequest → Fetched) (world : Surroundings),
        ∃ stepped, env.step answer world = .ok stepped) := by
  obtain ⟨configured, hsettings⟩ := run.configured
  have start : Agreement (new factory settings keys catalog sinks) .listening :=
    ⟨willing, fun s hs => nomatch hs⟩
  have h : Agreement env .listening :=
    run.invariant (P := fun _ env phase => Agreement env phase) Agreement.act start
  constructor
  · intro s hs
    obtain ⟨-, -, hshows⟩ := h.live s hs
    rw [← litBlocks_frame, ← hsettings, ← (configured s hs).2.1]
    exact hshows
  · intro fits answer world
    exact step_isOk configured (by rw [hsettings]; exact fits) answer world

/-- Two pixels are drawn on the first tick, and the second tick has nothing to paint. -/
theorem screen_agrees_of_quiet_tick :
    let sinks : Sinks RecordingDisplay Mute := ⟨{}, .mute⟩
    let settings : SchedulerSettings := { cyclesPerTick := 2, scale := 3 }
    let started := new (fun _ => Interpreter.initial) settings .released [] sinks
    PaintedDisplay.Willing sinks.display ∧
    ∃ env deeds s, Run started env deeds ∧ env.sessions.session = some s ∧ s.scheduler.ticks = 2 ∧
      env.sinks.display.presents = 1 ∧
      PaintedDisplay.painted env.sinks.display = [⟨0, 0, 3⟩, ⟨3, 0, 3⟩] ∧
      (((List.finRange Frame.size).filter s.machine.frame.isLit).map fun place : Frame.Cell =>
        (⟨place.val % 64 * 3, place.val / 64 * 3, 3⟩ : Block)) = [⟨0, 0, 3⟩, ⟨3, 0, 3⟩] := by
  intro sinks settings started
  have willing : PaintedDisplay.Willing sinks.display := fun _ => rfl
  let rom : Rom := ⟨"bar", [0xA2, 0x04, 0xD0, 0x01, 0xC0, 0x00], none⟩
  let answer : RomRequest → Fetched := fun _ => { result := .ok rom }
  let world : Surroundings := { polled := .ok [], answered := 1 }
  have fits : (Frame.width - 1) * max settings.scale 1 < Word.limit := by decide +kernel
  have selected := (Run.start : Run started started []).select (.named "bar")
  obtain ⟨first, hfirst⟩ := (screen_agrees willing selected).2 fits answer world
  have once := selected.step answer world first hfirst
  obtain ⟨second, hsecond⟩ := (screen_agrees willing once).2 fits answer world
  have twice := once.step answer world second hsecond
  let check (second : Outcome Interpreter RecordingDisplay Mute (Except ConsoleError Flow)) : Bool :=
    second.environment.sinks.display.presents == 1 &&
    second.environment.sinks.display.blocks.toList == [⟨0, 0, 3⟩, ⟨3, 0, 3⟩] &&
    second.environment.sessions.session.any fun s => s.scheduler.ticks == 2
  let ticked := (started.select (.named "bar")).1.step answer world >>= fun first =>
    first.environment.step answer world
  have checked : ticked.toOption.any check = true := by decide +kernel
  have hticked : ticked = .ok second :=
    ArithmeticFault.bind_eq_ok_iff.mpr ⟨first, hfirst, hsecond⟩
  have seen : check second = true :=
    (congrArg (fun ticked => ticked.toOption.any check) hticked).symm.trans checked
  simp only [check, Bool.and_eq_true, beq_iff_eq, Option.any_eq_true] at seen
  obtain ⟨⟨presents, painted⟩, s, hs, ticks⟩ := seen
  refine ⟨willing, _, _, s, twice, hs, ticks, presents, painted, ?_⟩
  exact ((screen_agrees willing twice).1 s hs).symm.trans painted

end Environment

end Chip8Console
