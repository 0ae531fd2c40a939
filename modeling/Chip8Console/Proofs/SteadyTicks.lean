import Chip8Console.Machine.Scripted
import Chip8Console.Proofs.LastSelection
import Chip8Console.Proofs.RigMoves
import Chip8Console.Proofs.SessionHistory
import Chip8Console.Proofs.StepCourse
import Chip8Console.Screen.Recording

/-!
One tick for each step. On a screen that refuses nothing a running session never misses a step and never
gets two ticks in one, so that its count of ticks is a count of steps.
-/
namespace Chip8Console

namespace Environment
variable {M D S : Type}

/-- In order, with every session awaiting its next tick and a screen that refuses nothing. -/
structure Steady (Willing : D → Prop) (env : Environment M D S) (phase : Phase) : Prop
    extends InOrder env phase where
  awake : ∀ s, env.sessions.session = some s → s.pending.isSome
  willing : Willing env.sinks.display

variable [Display D] {Willing : D → Prop}

private theorem report_willing (unfailing : Display.Unfailing Willing) {env : Environment M D S}
    (h : Willing env.sinks.display) (e : ConsoleError) : Willing (env.report e).1.sinks.display :=
  (unfailing.present (unfailing.caption _ h)).2

variable [Machine M]

private theorem finishLoad_willing (unfailing : Display.Unfailing Willing) {env : Environment M D S}
    (h : Willing env.sinks.display) (load : LoadResult) :
    Willing (env.finishLoad load).1.sinks.display := by
  simp only [finishLoad]
  split
  · split
    · exact unfailing.caption _ h
    · exact h
  · exact h
  · exact report_willing unfailing h _

private theorem finishLoad_awake {env : Environment M D S}
    (h : ∀ s, env.sessions.session = some s → s.pending.isSome) (load : LoadResult) :
    ∀ s, (env.finishLoad load).1.sessions.session = some s → s.pending.isSome := by
  rw [finishLoad_sessions]
  generalize hdone : env.sessions.completeLoad load.1 load.2 env.refresh = done
  cases SessionManager.completeLoad_completion hdone with
  | superseded | missing | refused => exact h
  | activated =>
    intro s hs
    cases hs
    rfl

variable [Sound S]

private theorem Steady.act (unfailing : Display.Unfailing Willing) {env env' : Environment M D S}
    {phase phase' : Phase} {deeds : List Deed} (h : Steady Willing env phase)
    (act : Act env phase deeds env' phase') : Steady Willing env' phase' := by
  refine ⟨h.toInOrder.act act, ?_, ?_⟩
  case refine_1 =>
    cases act with
    | select | report | work | collect | fire | rest => exact h.awake
    | key c pressed =>
      intro s' hs'
      obtain ⟨s, hs, keyed⟩ := SessionManager.keyEvent_keyed hs'
      rw [keyed.same]
      exact h.awake s hs
    | deliver load rest => exact finishLoad_awake h.awake load
    | tick token rest dice ran status hran result =>
      cases SessionManager.onTick_delivery hran with
      | stale => exact h.awake
      | failed => cases result
      | ran =>
        intro s hs
        cases hs
        rfl
    | fail token rest dice ran e hran result =>
      cases SessionManager.onTick_delivery hran with
      | stale | ran => cases result
      | failed session ticked e live hticked failed =>
        obtain ⟨⟨outcome, hok⟩, -⟩ := unfailing.tick h.willing hticked
        rw [failed] at hok
        cases hok
    | teardown => exact nofun
  case refine_2 =>
    cases act with
    | select request => exact unfailing.caption _ h.willing
    | key | work | collect | fire | rest | teardown => exact h.willing
    | report e => exact report_willing unfailing h.willing e
    | deliver load rest => exact finishLoad_willing unfailing h.willing load
    | tick token rest dice ran status hran | fail token rest dice ran status hran =>
      cases SessionManager.onTick_delivery hran with
      | stale => exact h.willing
      | failed session ticked e live hticked => exact (unfailing.tick h.willing hticked).2
      | ran session ticked outcome live hticked => exact (unfailing.tick h.willing hticked).2

private theorem Acts.steady (unfailing : Display.Unfailing Willing) {env env' : Environment M D S}
    {phase phase' : Phase} {deeds : List Deed} (acts : Acts env phase deeds env' phase')
    (h : Steady Willing env phase) : Steady Willing env' phase' :=
  Acts.invariant (P := fun _ env phase => Steady Willing env phase) (Steady.act unfailing) acts [] h

private theorem Acts.fixed {env env' : Environment M D S} {phase phase' : Phase} {deeds : List Deed}
    (acts : Acts env phase deeds env' phase') :
    env'.sessions.factory = env.sessions.factory ∧ env'.sessions.settings = env.sessions.settings := by
  refine Acts.invariant (P := fun _ env' _ => env'.sessions.factory = env.sessions.factory ∧
    env'.sessions.settings = env.sessions.settings) ?_ acts [] ⟨rfl, rfl⟩
  rintro before middle env' phase phase' deeds ⟨hfactory, hsettings⟩ act
  rcases act.sessions with same | ⟨e, told, step⟩
  · rw [same]
    exact ⟨hfactory, hsettings⟩
  · exact ⟨step.fixed.1.trans hfactory, step.fixed.2.1.trans hsettings⟩

/-! Activations in a step -/

section
omit [Sound S]

private theorem handleAllDeeds_selected (env : Environment M D S) (events : List HostEvent) :
    ∀ d ∈ env.handleAllDeeds events, ∃ ticket request running, d = .selected ticket request running := by
  induction events generalizing env with
  | nil => exact List.forall_mem_nil _
  | cons event rest ih =>
    rw [handleAllDeeds, List.forall_mem_append]
    constructor
    · cases event with
      | key | quit => exact List.forall_mem_nil _
      | selectSlot slot =>
        simp only [handleDeeds, selectSlotDeeds]
        cases env.catalog[slot]? with
        | none => exact List.forall_mem_nil _
        | some name => exact List.forall_mem_singleton.mpr ⟨_, _, _, rfl⟩
    · cases (env.handle event).result with
      | quit => exact List.forall_mem_nil _
      | goOn => exact ih _

omit [Machine M] [Display D] in
private theorem activations_of_selected {deeds : List Deed}
    (selected : ∀ d ∈ deeds, ∃ ticket request running, d = .selected ticket request running) :
    activations deeds = [] := by
  apply List.filterMap_eq_nil_iff.mpr
  intro d hd
  obtain ⟨ticket, request, running, rfl⟩ := selected d hd
  rfl

private theorem loadSomeDeeds_answered (answer : RomRequest → Fetched) (loader : RomLoader) (count : Nat) :
    ∀ d ∈ loadSomeDeeds answer loader count,
      ∃ ticket request result, d = .answered ticket request result := by
  induction count generalizing loader with
  | zero => exact List.forall_mem_nil _
  | succ count ih =>
    rw [loadSomeDeeds, List.forall_mem_append]
    refine ⟨?_, ih _⟩
    cases loader.waiting with
    | nil => exact List.forall_mem_nil _
    | cons first others => exact List.forall_mem_singleton.mpr ⟨_, _, _, rfl⟩

/-- While nothing is awaited no session begins. -/
theorem finishAll_settled {env : Environment M D S} (settled : env.sessions.awaited = none)
    (loads : List LoadResult) : activations (env.finishAllDeeds loads) = [] ∧
      (env.finishAll loads).1.sessions.session = env.sessions.session := by
  induction loads generalizing env with
  | nil => exact ⟨rfl, rfl⟩
  | cons load rest ih =>
    have unwanted : env.sessions.awaited ≠ some load.1 := by
      rw [settled]
      nofun
    have late := SessionManager.completeLoad_superseded load.2 env.refresh unwanted
    have sessions : (env.finishLoad load).1.sessions = env.sessions := by
      rw [finishLoad_sessions, late]
    have settled' : (env.finishLoad load).1.sessions.awaited = none := by
      rw [sessions]
      exact settled
    obtain ⟨hrest, hsession⟩ := ih settled'
    refine ⟨?_, hsession.trans (by rw [sessions])⟩
    simp only [finishAllDeeds, late, activations, List.filterMap_cons]
    exact hrest

/-- Of the loads that are delivered in one step at most one begins a session. -/
theorem finishAll_begun (env : Environment M D S) (loads : List LoadResult) :
    (activations (env.finishAllDeeds loads) = [] ∧
      (env.finishAll loads).1.sessions.session = env.sessions.session) ∨
    ∃ load s, activations (env.finishAllDeeds loads) = [load.1] ∧
      .delivered load (.ok (some s.token)) ∈ env.finishAllDeeds loads ∧
      (env.finishAll loads).1.sessions.session = some s ∧
      s.HasRun env.sessions.factory env.sessions.settings 0 := by
  induction loads generalizing env with
  | nil => exact .inl ⟨rfl, rfl⟩
  | cons load rest ih =>
    have sessions := env.finishLoad_sessions load
    have deeds : env.finishAllDeeds (load :: rest) =
        .delivered load (env.sessions.completeLoad load.1 load.2 env.refresh).result ::
          (env.finishLoad load).1.finishAllDeeds rest := rfl
    generalize hdone : env.sessions.completeLoad load.1 load.2 env.refresh = done at sessions deeds
    rw [deeds]
    change (_ ∧ ((env.finishLoad load).1.finishAll rest).1.sessions.session = _) ∨
      ∃ other s, _ ∧ _ ∧ ((env.finishLoad load).1.finishAll rest).1.sessions.session = some s ∧ _
    cases SessionManager.completeLoad_completion hdone with
    | superseded | missing | refused =>
      -- the session is still the one it was, so the later loads decide
      have later := ih (env.finishLoad load).1
      rw [sessions] at later
      rcases later with quiet | ⟨other, s, once, began, running, fresh⟩
      · exact .inl quiet
      · exact .inr ⟨other, s, once, List.mem_cons_of_mem _ began, running, fresh⟩
    | activated rom machine loaded notices wanted came taken =>
      have settled : (env.finishLoad load).1.sessions.awaited = none := by
        rw [sessions]
        rfl
      obtain ⟨quiet, same⟩ := finishAll_settled settled rest
      rw [sessions] at same
      refine .inr ⟨load, _, ?_, List.mem_cons_self, same, SessionManager.begun_hasRun taken _ rfl⟩
      exact congrArg (load.1 :: ·) quiet

end

private theorem runTicksDeeds_ticked (env : Environment M D S) (dice : Dice) (due : List Token) :
    ∀ d ∈ env.runTicksDeeds dice due, ∃ token result, d = .ticked token result := by
  induction due generalizing env with
  | nil => exact List.forall_mem_nil _
  | cons token rest ih =>
    unfold runTicksDeeds
    cases env.sessions.onTick token env.refresh env.sinks dice with
    | error fault => exact List.forall_mem_nil _
    | ok ran =>
      simp only [List.forall_mem_cons]
      refine ⟨⟨_, _, rfl⟩, ?_⟩
      cases ran.result with
      | error e => exact List.forall_mem_nil _
      | ok status => exact ih _

private theorem delivered_session {env : Environment M D S} {answer : RomRequest → Fetched}
    {world : Surroundings} {events : List HostEvent} (polled : world.polled = .ok events)
    (stays : .quit ∉ events) :
    (activations (env.stepDeeds answer world)).length ≤ 1 ∧
    ∀ s, (env.delivered events answer world.answered).1.sessions.session = some s →
      (activations (env.stepDeeds answer world) = [] ∧
        ∃ before, env.sessions.session = some before ∧ before.Keyed s) ∨
      (∃ load, .delivered load (.ok (some s.token)) ∈ env.stepDeeds answer world) ∧
        s.HasRun env.sessions.factory env.sessions.settings 0 := by
  have handled := env.handleAll_result stays
  let loaded := (env.handleAll events).environment.loadSome answer world.answered
  let collected := { loaded with loader := loaded.loader.poll.2 }
  let finished := (collected.finishAll loaded.loader.poll.1).1
  have deeds : env.stepDeeds answer world = env.handleAllDeeds events ++
      (loadSomeDeeds answer (env.handleAll events).environment.loader world.answered ++
        (collected.finishAllDeeds loaded.loader.poll.1 ++
          { finished with refresh := finished.refresh.fire.2 }.runTicksDeeds world.dice
            finished.refresh.fire.1)) := by
    simp only [stepDeeds, polled, handled]
    rfl
  have activated : activations (env.stepDeeds answer world) =
      activations (collected.finishAllDeeds loaded.loader.poll.1) := by
    have selected := activations_of_selected (env.handleAllDeeds_selected events)
    have answered : ∀ d ∈ loadSomeDeeds answer (env.handleAll events).environment.loader world.answered,
        d.activation = none := by
      intro d hd
      obtain ⟨ticket, request, result, rfl⟩ := loadSomeDeeds_answered _ _ _ d hd
      rfl
    unfold activations at selected ⊢
    rw [deeds, List.filterMap_append, List.filterMap_append, selected,
      List.filterMap_eq_nil_iff.mpr answered]
    apply activations_append
    intro d hd
    obtain ⟨token, result, rfl⟩ := runTicksDeeds_ticked _ _ _ d hd
    rfl
  have fixed : loaded.sessions.factory = env.sessions.factory ∧
      loaded.sessions.settings = env.sessions.settings :=
    ((env.handleAll_acts events).append (loadSome_acts _ answer world.answered)).fixed
  rw [activated]
  rcases collected.finishAll_begun loaded.loader.poll.1 with
    ⟨quiet, same⟩ | ⟨load, fresh, once, began, running, hasRun⟩
  · refine ⟨by rw [quiet]; exact Nat.zero_le _, fun s hs => .inl ⟨quiet, ?_⟩⟩
    exact handleAll_keyed (same.symm.trans hs)
  · refine ⟨by rw [once]; exact Nat.le_refl _, fun s hs => .inr ?_⟩
    obtain rfl := Option.some.inj (running.symm.trans hs)
    refine ⟨⟨load, ?_⟩, ?_⟩
    · rw [deeds]
      simp only [List.mem_append]
      exact .inr (.inr (.inl began))
    · rw [← fixed.1, ← fixed.2]
      exact hasRun

/-- What a step can come to on a screen that refuses nothing, with these events at hand. -/
inductive SteadyStep (env : Environment M D S) (answer : RomRequest → Fetched) (world : Surroundings)
    (events : List HostEvent) : Outcome M D S (Except ConsoleError Flow) → Prop
  /-- what was said before is acted on; all that can come of it is keys and selections -/
  | quit {before after : List HostEvent} (asked : events = before ++ .quit :: after)
      (first : .quit ∉ before) (selected : ∀ d ∈ env.stepDeeds answer world,
        ∃ ticket request running, d = .selected ticket request running)
      (kept : ∀ s, (env.handleAll before).environment.sessions.session = some s →
        ∃ earlier, env.sessions.session = some earlier ∧ earlier.Keyed s) :
      SteadyStep env answer world events
        ⟨.ok .quit, (env.handleAll before).environment, (env.handleAll before).journal⟩
  | idle (stays : .quit ∉ events) (delivered : Environment M D S) (told : Journal)
      (h : env.delivered events answer world.answered = (delivered, told))
      (idle : delivered.sessions.session = none) :
      SteadyStep env answer world events
        ⟨.ok .goOn, { delivered with refresh := delivered.refresh.fire.2 }, told⟩
  /-- the session that runs once all loads are delivered is given one tick; it ran before the step or begins
  in it -/
  | ticked (stays : .quit ∉ events) (delivered : Environment M D S) (told : Journal)
      (h : env.delivered events answer world.answered = (delivered, told)) (s : Session M)
      (running : delivered.sessions.session = some s)
      (kept : (∃ earlier, env.sessions.session = some earlier ∧ earlier.Keyed s) ∨
        s.HasRun env.sessions.factory env.sessions.settings 0)
      (ticked : Scheduler.Ticked M D S) (outcome : TickOutcome)
      (ran : s.scheduler.tick s.machine delivered.sinks world.dice = .ok ticked)
      (result : ticked.result = .ok outcome) :
      SteadyStep env answer world events ⟨.ok .goOn,
        { delivered with
          sessions := delivered.sessions.advanced s ticked
            (some (delivered.refresh.fire.2.request s.token).1)
          refresh := (delivered.refresh.fire.2.request s.token).2
          sinks := ticked.sinks },
        told ++ ticked.journal⟩

private theorem Steady.step (unfailing : Display.Unfailing Willing) {env : Environment M D S}
    (h : Steady Willing env .listening) {answer : RomRequest → Fetched} {world : Surroundings}
    {events : List HostEvent} (polled : world.polled = .ok events)
    {stepped : Outcome M D S (Except ConsoleError Flow)} (hstep : env.step answer world = .ok stepped) :
    SteadyStep env answer world events stepped := by
  cases step_course hstep with
  | unheard polled' =>
    rw [polled] at polled'
    cases polled'
  | quit polled' first =>
    obtain rfl := Except.ok.inj (polled.symm.trans polled')
    refine .quit rfl first ?_ fun s => handleAll_keyed
    simp only [stepDeeds, polled, env.handleAll_quit first, env.handleAllDeeds_quit first, List.append_nil]
    exact env.handleAllDeeds_selected _
  | refreshed polled' stays ran hran =>
    obtain rfl := Except.ok.inj (polled.symm.trans polled')
    obtain ⟨deeds, acts⟩ := env.delivered_acts events answer world.answered
    have steady := acts.steady unfailing h
    cases steady.toInOrder.refresh hran with
    | idle none =>
      rw [List.append_nil]
      refine .idle stays _ _ rfl ?_
      rw [Option.eq_none_iff_forall_not_mem]
      intro s hs
      obtain ⟨handle, waits⟩ := Option.isSome_iff_exists.mp (steady.awake s hs)
      rw [SessionManager.owed_of_session hs, waits] at none
      cases none
    | ticked s ticked outcome running waits hticked result =>
      have kept := ((delivered_session polled stays).2 s running).imp And.right And.right
      exact .ticked stays _ _ rfl s running kept ticked outcome hticked result
    | failed s ticked cause running waits hticked failed =>
      obtain ⟨⟨outcome, hok⟩, -⟩ := unfailing.tick steady.willing hticked
      rw [failed] at hok
      cases hok

structure Stepped where
  flow : Flow
  deeds : List Deed

/-- A run of the console told by its steps. The host is heard at each of them. What is done between two
steps begins and ends between two calls. -/
inductive Paced (env₀ : Environment M D S) : Environment M D S → List Stepped → Prop
  | start : Paced env₀ env₀ []
  | between {env env' : Environment M D S} {steps : List Stepped} (run : Paced env₀ env steps)
      (deeds : List Deed) (act : Act env .listening deeds env' .listening) : Paced env₀ env' steps
  | step {env : Environment M D S} {steps : List Stepped} (run : Paced env₀ env steps)
      (answer : RomRequest → Fetched) (world : Surroundings) (events : List HostEvent)
      (polled : world.polled = .ok events) (stepped : Outcome M D S (Except ConsoleError Flow))
      (h : env.step answer world = .ok stepped) (flow : Flow) (result : stepped.result = .ok flow) :
      Paced env₀ stepped.environment (steps ++ [⟨flow, env.stepDeeds answer world⟩])

private theorem Paced.acts {env₀ env : Environment M D S} {steps : List Stepped}
    (run : Paced env₀ env steps) : ∃ deeds, Acts env₀ .listening deeds env .listening := by
  induction run with
  | start => exact ⟨[], .refl env₀ .listening⟩
  | between run deeds act ih =>
    obtain ⟨before, acts⟩ := ih
    exact ⟨_, acts.append act.acts⟩
  | step run answer world events polled stepped h flow result ih =>
    obtain ⟨before, acts⟩ := ih
    exact ⟨_, acts.append (step_acts h)⟩

/-- The last of the steps, from the one on in which a session with this token began. None begins in the
later ones. -/
def Since (token : Token) (steps since : List Stepped) : Prop :=
  ∃ earlier first later, steps = earlier ++ since ∧ since = first :: later ∧
    (∃ load, .delivered load (.ok (some token)) ∈ first.deeds) ∧
    ∀ step ∈ later, activations step.deeds = []

def goneOn (steps : List Stepped) : Nat := steps.countP fun step => step.flow = .goOn

omit [Machine M] [Display D] [Sound S] in
private theorem Since.later {token : Token} {steps since : List Stepped} (h : Since token steps since)
    {step : Stepped} (quiet : activations step.deeds = []) :
    Since token (steps ++ [step]) (since ++ [step]) := by
  obtain ⟨earlier, first, later, rfl, rfl, began, hlater⟩ := h
  refine ⟨earlier, first, later ++ [step], List.append_assoc .., rfl, began, ?_⟩
  exact List.forall_mem_append.mpr ⟨hlater, List.forall_mem_singleton.mpr quiet⟩

omit [Machine M] [Display D] [Sound S] in
private theorem Since.began {token : Token} {step : Stepped} {load : LoadResult} (steps : List Stepped)
    (began : .delivered load (.ok (some token)) ∈ step.deeds) : Since token (steps ++ [step]) [step] :=
  ⟨steps, step, [], rfl, rfl, ⟨load, began⟩, List.forall_mem_nil _⟩

/-- The session that runs was begun in one of the steps and has run a tick for each that went on since. -/
def Counted (factory : Nat → M) (settings : SchedulerSettings) (env : Environment M D S)
    (steps : List Stepped) : Prop :=
  ∀ s, env.sessions.session = some s →
    ∃ since, Since s.token steps since ∧ s.HasRun factory settings (goneOn since)

private theorem Counted.step {env : Environment M D S} {steps : List Stepped}
    (h : Counted env.sessions.factory env.sessions.settings env steps) {answer : RomRequest → Fetched}
    {world : Surroundings} {events : List HostEvent} (polled : world.polled = .ok events)
    {stepped : Outcome M D S (Except ConsoleError Flow)}
    (steady : SteadyStep env answer world events stepped) {flow : Flow}
    (result : stepped.result = .ok flow) :
    Counted env.sessions.factory env.sessions.settings stepped.environment
      (steps ++ [⟨flow, env.stepDeeds answer world⟩]) := by
  intro s' hs'
  cases steady with
  | quit asked first selected kept =>
    obtain rfl := Except.ok.inj result
    obtain ⟨s, hs, keyed⟩ := kept s' hs'
    obtain ⟨since, hsince, hasRun⟩ := h s hs
    refine ⟨_, keyed.token ▸ hsince.later (activations_of_selected selected), ?_⟩
    have same : goneOn (since ++ [⟨.quit, env.stepDeeds answer world⟩]) = goneOn since := by
      simp [goneOn]
    rw [same]
    exact hasRun.keyed keyed
  | idle stays delivered told hdelivered idle => cases idle.symm.trans hs'
  | ticked stays delivered told hdelivered s running kept ticked outcome ran =>
    obtain rfl := Except.ok.inj result
    cases hs'
    have running' : (env.delivered events answer world.answered).1.sessions.session = some s := by
      rw [hdelivered]
      exact running
    rcases (delivered_session polled stays).2 s running' with
      ⟨quiet, before, hbefore, keyed⟩ | ⟨⟨load, began⟩, fresh⟩
    · obtain ⟨since, hsince, hasRun⟩ := h before hbefore
      refine ⟨_, keyed.token ▸ hsince.later quiet, ?_⟩
      have more : goneOn (since ++ [⟨.goOn, env.stepDeeds answer world⟩]) = goneOn since + 1 := by
        simp [goneOn]
      rw [more]
      exact (hasRun.keyed keyed).ticked ran _
    · exact ⟨_, Since.began steps began, fresh.ticked ran _⟩

private theorem Paced.counted (unfailing : Display.Unfailing Willing) {env₀ env : Environment M D S}
    {steps : List Stepped} (start : Steady Willing env₀ .listening) (idle : env₀.sessions.session = none)
    (run : Paced env₀ env steps) : Counted env₀.sessions.factory env₀.sessions.settings env steps := by
  induction run with
  | start => exact fun s hs => nomatch idle.symm.trans hs
  | between run deeds act ih =>
    intro s' hs'
    obtain ⟨s, hs, keyed⟩ := act.keyed hs'
    obtain ⟨since, hsince, hasRun⟩ := ih s hs
    exact ⟨since, keyed.token ▸ hsince, hasRun.keyed keyed⟩
  | step run answer world events polled stepped h flow result ih =>
    obtain ⟨before, acts⟩ := run.acts
    have steady := (acts.steady unfailing start).step unfailing polled h
    rw [← acts.fixed.1, ← acts.fixed.2] at ih ⊢
    exact ih.step polled steady result

/-- On a screen that refuses nothing, at every point of every run in which the host is heard. The next step
acts on what the host says up to its wish to quit, and on nothing else if there is one. If there is none,
the session that runs once all finished loads are delivered is given one tick, which goes through, and
without a session no tick is run; at most one session begins. The session that runs has been given one tick
in each step that went on from the one on in which it began, and its machine has run the cycles of these
ticks and no others. While the blocks of the picture have words for corners, no step ends in a fault. -/
theorem one_tick_per_step (unfailing : Display.Unfailing Willing) {factory : Nat → M}
    {settings : SchedulerSettings} {keys : KeyTable} {catalog : List String} {sinks : Sinks D S}
    (willing : Willing sinks.display) {env : Environment M D S} {steps : List Stepped}
    (run : Paced (new factory settings keys catalog sinks) env steps) :
    (∀ answer world events, world.polled = .ok events →
      (∀ stepped, env.step answer world = .ok stepped →
        SteadyStep env answer world events stepped ∧
        (activations (env.stepDeeds answer world)).length ≤ 1) ∧
      ((Frame.width - 1) * max settings.scale 1 < Word.limit →
        ∃ stepped, env.step answer world = .ok stepped)) ∧
    ∀ s, env.sessions.session = some s → ∃ since, Since s.token steps since ∧
      env.sessions.ticks = goneOn since ∧ s.HasRun factory settings (goneOn since) := by
  have start : Steady Willing (new factory settings keys catalog sinks) .listening :=
    ⟨inOrder_new factory settings keys catalog sinks {}, nofun, willing⟩
  obtain ⟨deeds, acts⟩ := run.acts
  constructor
  · intro answer world events polled
    constructor
    · intro stepped hstep
      have steady := (acts.steady unfailing start).step unfailing polled hstep
      refine ⟨steady, ?_⟩
      cases steady with
      | quit asked first selected =>
        rw [activations_of_selected selected]
        exact Nat.zero_le 1
      | idle stays => exact (delivered_session polled stays).1
      | ticked stays => exact (delivered_session polled stays).1
    · intro fits
      obtain ⟨configured, hsettings⟩ :=
        acts.configured (SessionManager.configured_new factory settings keys)
      exact step_isOk configured (by rw [hsettings]; exact fits) answer world
  · intro s hs
    obtain ⟨since, hsince, hasRun⟩ := run.counted unfailing start rfl s hs
    refine ⟨since, hsince, ?_, hasRun⟩
    rw [SessionManager.ticks, hs]
    exact hasRun.ticks

/-- A second image is selected and arrives in the second of three steps. -/
theorem one_tick_per_step_of_swap :
    let Willing (screen : RecordingDisplay) : Prop := ∀ count, screen.refusal count = none
    let machine (k : Nat) : ScriptedMachine := { id := k }
    let started : Environment ScriptedMachine RecordingDisplay Mute :=
      new machine {} .released ["maze", "pong"] ⟨{}, .mute⟩
    Display.Unfailing Willing ∧ Willing started.sinks.display ∧
    ∃ env steps since s, Paced started env steps ∧ steps.length = 3 ∧
      env.sessions.session = some s ∧ s.token = ⟨2⟩ ∧ Since s.token steps since ∧ goneOn since = 2 ∧
      s.HasRun machine {} 2 := by
  intro Willing machine started
  have unfailing : Display.Unfailing Willing := RecordingDisplay.unfailing
  have willing : Willing started.sinks.display := fun _ => rfl
  let answer : RomRequest → Fetched := fun _ => { result := .ok ⟨"maze", [0x12, 0x00], none⟩ }
  let quiet : Surroundings := { polled := .ok [] }
  let swap (slot : Nat) : Surroundings := { polled := .ok [.selectSlot slot], answered := 1 }
  have goes {env : Environment ScriptedMachine RecordingDisplay Mute} {steps : List Stepped}
      (run : Paced started env steps) (world : Surroundings) (events : List HostEvent)
      (polled : world.polled = .ok events) : ∃ stepped flow, env.step answer world = .ok stepped ∧
        Paced started stepped.environment (steps ++ [⟨flow, env.stepDeeds answer world⟩]) := by
    obtain ⟨steady, isOk⟩ := (one_tick_per_step unfailing willing run).1 answer world events polled
    obtain ⟨stepped, hstepped⟩ := isOk (by decide +kernel)
    obtain ⟨flow, hflow⟩ : ∃ flow, stepped.result = .ok flow := by
      cases (steady stepped hstepped).1 <;> exact ⟨_, rfl⟩
    exact ⟨stepped, flow, hstepped, run.step answer world events polled stepped hstepped flow hflow⟩
  obtain ⟨first, flow, hfirst, once⟩ := goes .start (swap 0) _ rfl
  obtain ⟨second, flow', hsecond, twice⟩ := goes once (swap 1) _ rfl
  obtain ⟨third, flow'', hthird, thrice⟩ := goes twice quiet _ rfl
  let played := started.step answer (swap 0) >>= fun first =>
    first.environment.step answer (swap 1) >>= fun second => second.environment.step answer quiet
  have hplayed : played = .ok third :=
    ArithmeticFault.bind_eq_ok_iff.mpr
      ⟨first, hfirst, ArithmeticFault.bind_eq_ok_iff.mpr ⟨second, hsecond, hthird⟩⟩
  let check (last : Outcome ScriptedMachine RecordingDisplay Mute (Except ConsoleError Flow)) : Bool :=
    last.environment.sessions.session.any fun s => s.token == ⟨2⟩ && s.scheduler.ticks == 2
  have checked : played.toOption.any check = true := by decide +kernel
  have seen : check third = true :=
    (congrArg (fun played => played.toOption.any check) hplayed).symm.trans checked
  obtain ⟨s, hs, hchecked⟩ := (Option.any_eq_true _ _).mp seen
  obtain ⟨token, ticks⟩ := Bool.and_eq_true_iff.mp hchecked
  obtain ⟨since, hsince, -, hasRun⟩ := (one_tick_per_step unfailing willing thrice).2 s hs
  have two : goneOn since = 2 := hasRun.ticks.symm.trans (eq_of_beq ticks)
  exact ⟨unfailing, willing, _, _, since, s, thrice, rfl, hs, eq_of_beq token, hsince, two, two ▸ hasRun⟩

end Environment

end Chip8Console
