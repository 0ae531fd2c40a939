import Chip8Console.Machine.Scripted
import Chip8Console.Proofs.LastSelection
import Chip8Console.Proofs.StepCourse
import Chip8Console.Screen.Recording

/-!
The end of a run. However a run of the console ends, nothing of it is left over: no tick waits, no key is
held, and an image that arrives later is not wanted any more.
-/
namespace Chip8Console.Environment
variable {M D S : Type}

/-- Nothing runs, nothing is wanted and nothing waits. -/
structure Stopped (env : Environment M D S) (phase : Phase) : Prop where
  idle : env.sessions.session = none
  unwanted : env.sessions.awaited = none
  quiet : env.refresh.pending = []
  none_due : ∀ due, phase = .ticking due → due = []

/-- A deed that runs no tick and begins no session. -/
def Deed.isInert (d : Deed) : Prop := (∀ token result, d ≠ .ticked token result) ∧ d.activation = none

variable [Machine M] [Display D] [Sound S]

/-- Steps after each of which the console goes on. -/
inductive GoesOn (answer : RomRequest → Fetched) :
    Environment M D S → List Surroundings → Environment M D S → Prop
  | refl (env : Environment M D S) : GoesOn answer env [] env
  | step {env env' : Environment M D S} {world : Surroundings} {rest : List Surroundings}
      {stepped : Outcome M D S (Except ConsoleError Flow)} (h : env.step answer world = .ok stepped)
      (result : stepped.result = .ok .goOn) (later : GoesOn answer stepped.environment rest env') :
      GoesOn answer env (world :: rest) env'

/-- Why a step is the last one, and what the run answers then. -/
inductive Ending (env : Environment M D S) (answer : RomRequest → Fetched) (world : Surroundings) :
    Except ConsoleError Unit → Prop
  | quit {events : List HostEvent} (polled : world.polled = .ok events) (asked : .quit ∈ events) :
      Ending env answer world (.ok ())
  | unheard {cause : Cause} (polled : world.polled = .error cause) :
      Ending env answer world (.error (.terminal cause))
  /-- the tick of the session that runs once all loads are delivered cannot be shown -/
  | unshown {events : List HostEvent} {s : Session M} {ticked : Scheduler.Ticked M D S} {cause : Cause}
      (polled : world.polled = .ok events) (stays : .quit ∉ events)
      (running : (env.delivered events answer world.answered).1.sessions.session = some s)
      (ran : s.scheduler.tick s.machine (env.delivered events answer world.answered).1.sinks world.dice =
        .ok ticked)
      (result : ticked.result = .error (.terminal cause)) :
      Ending env answer world (.error (.terminal cause))

private theorem run_ending {env : Environment M D S} {answer : RomRequest → Fetched}
    {worlds : List Surroundings} {finished : Finished M D S} {result : Except ConsoleError Unit}
    (h : env.run answer worlds = .ok finished) (ended : finished.result = some result) :
    ∃ gone last env' stepped, worlds = gone ++ last :: finished.unused ∧
      GoesOn answer env gone env' ∧ env'.step answer last = .ok stepped ∧
      stepped.result ≠ .ok .goOn ∧ result = stepped.result.map (fun _ => ()) ∧
      finished.environment = stepped.environment.teardown.1 := by
  induction worlds generalizing env finished with
  | nil =>
    cases h
    cases ended
  | cons world rest ih =>
    obtain ⟨stepped, hstep, hrest⟩ := ArithmeticFault.bind_eq_ok_iff.mp h
    cases hresult : stepped.result with
    | error e =>
      rw [hresult] at hrest
      cases hrest
      obtain rfl := Option.some.inj ended
      refine ⟨[], world, env, stepped, rfl, .refl env, hstep, ?_, ?_, rfl⟩ <;> rw [hresult]
      · nofun
      · rfl
    | ok flow =>
      rw [hresult] at hrest
      cases flow with
      | quit =>
        cases hrest
        obtain rfl := Option.some.inj ended
        refine ⟨[], world, env, stepped, rfl, .refl env, hstep, ?_, ?_, rfl⟩ <;> rw [hresult]
        · nofun
        · rfl
      | goOn =>
        obtain ⟨others, hothers, hfinished⟩ := ArithmeticFault.bind_eq_ok_iff.mp hrest
        cases hfinished
        obtain ⟨gone, last, env', final, rfl, hgone, hfinal⟩ := ih hothers ended
        exact ⟨world :: gone, last, env', final, rfl, .step hstep hresult hgone, hfinal⟩

private theorem GoesOn.acts {answer : RomRequest → Fetched} {env env' : Environment M D S}
    {worlds : List Surroundings} (on : GoesOn answer env worlds env') :
    ∃ deeds, Acts env .listening deeds env' .listening := by
  induction on with
  | refl env => exact ⟨[], .refl env .listening⟩
  | step h result later ih =>
    obtain ⟨deeds, acts⟩ := ih
    exact ⟨_, (step_acts h).append acts⟩

private theorem InOrder.ending {env : Environment M D S} {answer : RomRequest → Fetched}
    {world : Surroundings} {stepped : Outcome M D S (Except ConsoleError Flow)}
    (h : InOrder env .listening) (step : env.step answer world = .ok stepped)
    (last : stepped.result ≠ .ok .goOn) :
    Ending env answer world (stepped.result.map fun _ => ()) := by
  cases step_course step with
  | unheard polled => exact .unheard polled
  | quit polled first => exact .quit polled (by simp)
  | refreshed polled stays ran hran =>
    obtain ⟨deeds, acts⟩ := env.delivered_acts _ answer world.answered
    cases (acts.inOrder h).refresh hran with
    | idle | ticked => exact absurd rfl last
    | failed s ticked cause running waits hticked result =>
      exact .unshown polled stays running hticked result

private theorem InOrder.stopped {env : Environment M D S} (h : InOrder env .listening) :
    Stopped env.teardown.1 .listening where
  idle := rfl
  unwanted := rfl
  quiet := (h.act (.teardown env)).waiting
  none_due := nofun

private theorem Stopped.act {env env' : Environment M D S} {phase phase' : Phase} {deeds : List Deed}
    (h : Stopped env phase) (act : Act env phase deeds env' phase')
    (unselected : ∀ d ∈ deeds, d.selection = none) :
    Stopped env' phase' ∧ ∀ d ∈ deeds, d.isInert := by
  cases act with
  | select request => cases unselected _ (List.mem_singleton_self _)
  | key c pressed =>
    refine ⟨?_, List.forall_mem_nil _⟩
    generalize hafter : env.sessions.keyEvent c pressed = after
    cases SessionManager.keyEvent_keying hafter with
    | kept => exact { h with }
    | forwarded key session changed running =>
      rw [h.idle] at running
      cases running
  | report e => exact ⟨{ h with }, List.forall_mem_nil _⟩
  | work answer ticket request rest waiting =>
    exact ⟨{ h with }, List.forall_mem_singleton.mpr ⟨nofun, rfl⟩⟩
  | collect => exact ⟨⟨h.idle, h.unwanted, h.quiet, nofun⟩, List.forall_mem_nil _⟩
  | deliver load rest =>
    -- nothing is awaited, so whatever arrives comes too late
    have unwanted : env.sessions.awaited ≠ some load.1 := by
      rw [h.unwanted]
      nofun
    have late := SessionManager.completeLoad_superseded load.2 env.refresh unwanted
    have sessions := env.finishLoad_sessions load
    have refresh := env.finishLoad_refresh load
    rw [late] at sessions refresh ⊢
    refine ⟨⟨?_, ?_, ?_, nofun⟩, List.forall_mem_singleton.mpr ⟨nofun, rfl⟩⟩
    · rw [sessions]
      exact h.idle
    · rw [sessions]
      exact h.unwanted
    · rw [refresh]
      exact h.quiet
  | fire =>
    refine ⟨⟨h.idle, h.unwanted, rfl, fun due hdue => ?_⟩, List.forall_mem_nil _⟩
    obtain rfl := Phase.ticking.inj hdue
    exact congrArg (List.map Prod.snd) h.quiet
  | tick token rest dice ran status hran result => cases h.none_due _ rfl
  | fail token rest dice ran e hran result => cases h.none_due _ rfl
  | rest => exact ⟨⟨h.idle, h.unwanted, h.quiet, nofun⟩, List.forall_mem_nil _⟩
  | teardown =>
    refine ⟨⟨rfl, rfl, ?_, nofun⟩, List.forall_mem_singleton.mpr ⟨nofun, rfl⟩⟩
    change (env.sessions.teardown env.refresh).2.1.pending = []
    rw [SessionManager.teardown_refresh, SessionManager.retire, h.idle]
    exact h.quiet

private theorem Stopped.run {env env' : Environment M D S} {deeds : List Deed} (h : Stopped env .listening)
    (run : Run env env' deeds) (unselected : ∀ d ∈ deeds, d.selection = none) :
    Stopped env' .listening ∧ ∀ d ∈ deeds, d.isInert := by
  refine run.invariant (P := fun deeds env phase => (∀ d ∈ deeds, d.selection = none) →
    Stopped env phase ∧ ∀ d ∈ deeds, d.isInert) ?_ (fun _ => ⟨h, List.forall_mem_nil _⟩) unselected
  intro before env env' phase phase' deeds ih act unselected
  obtain ⟨hbefore, hdeeds⟩ := List.forall_mem_append.mp unselected
  obtain ⟨stopped, inert⟩ := ih hbefore
  obtain ⟨stopped', inert'⟩ := stopped.act act hdeeds
  exact ⟨stopped', List.forall_mem_append.mpr ⟨inert, inert'⟩⟩

/-- The console does not go on after a step in which the host wants to quit or cannot be heard. -/
theorem goes_on_polled {env : Environment M D S} {answer : RomRequest → Fetched} {world : Surroundings}
    {stepped : Outcome M D S (Except ConsoleError Flow)} (h : env.step answer world = .ok stepped)
    (on : stepped.result = .ok .goOn) : ∃ events, world.polled = .ok events ∧ .quit ∉ events := by
  cases step_course h with
  | unheard | quit => cases on
  | refreshed polled stays => exact ⟨_, polled, stays⟩

private theorem run_ends {env : Environment M D S} (configured : env.sessions.Configured)
    (fits : (Frame.width - 1) * max env.sessions.settings.scale 1 < Word.limit)
    (answer : RomRequest → Fetched) {worlds : List Surroundings}
    (stops : ∃ world ∈ worlds, ∀ events, world.polled = .ok events → .quit ∈ events) :
    ∃ finished result, env.run answer worlds = .ok finished ∧ finished.result = some result := by
  induction worlds generalizing env with
  | nil =>
    obtain ⟨world, hworld, -⟩ := stops
    cases hworld
  | cons world rest ih =>
    obtain ⟨stepped, hstep⟩ := step_isOk configured fits answer world
    simp only [run, hstep, bind, Except.bind]
    match hresult : stepped.result with
    | .error e => exact ⟨_, _, rfl, rfl⟩
    | .ok .quit => exact ⟨_, _, rfl, rfl⟩
    | .ok .goOn =>
      obtain ⟨events, polled, stays⟩ := goes_on_polled hstep hresult
      have later : ∃ world ∈ rest, ∀ events, world.polled = .ok events → .quit ∈ events := by
        obtain ⟨other, hother, ends⟩ := stops
        rcases List.mem_cons.mp hother with rfl | hother
        · exact absurd (ends events polled) stays
        · exact ⟨other, hother, ends⟩
      obtain ⟨hconfigured, hsettings⟩ := (step_acts hstep).configured configured
      obtain ⟨finished, result, hfinished, ended⟩ := ih hconfigured (hsettings ▸ fits) later
      simp only [hfinished]
      exact ⟨_, result, rfl, ended⟩

/-- Take any console, at any point of any run. Wherever a further run of it ends, it ends because the host
wants to quit or cannot be heard, or because the tick that is owed cannot be shown, and it answers with
that. Then the console is idle: no session runs and none is wanted, no tick waits, no key is held. From
there on, whatever is asked of the console but to select, no tick is run and no session begins, though
images that were asked for before arrive. The run does end if the host once stops. -/
theorem ends_clean {factory : Nat → M} {settings : SchedulerSettings} {keys : KeyTable}
    {catalog : List String} {sinks : Sinks D S} {loader : RomLoader} {env : Environment M D S}
    {before : List Deed} (reached : Run { new factory settings keys catalog sinks with loader } env before)
    (answer : RomRequest → Fetched) (worlds : List Surroundings) :
    (∀ finished result, env.run answer worlds = .ok finished → finished.result = some result →
      (∃ gone last env' stepped, worlds = gone ++ last :: finished.unused ∧
        GoesOn answer env gone env' ∧ env'.step answer last = .ok stepped ∧
        Ending env' answer last result ∧ finished.environment = stepped.environment.teardown.1) ∧
      finished.environment.sessions.state = .idle ∧
      finished.environment.sessions.tokens.active = none ∧
      finished.environment.refresh.pending = [] ∧
      (∀ key, finished.environment.sessions.keys.isDown key = false) ∧
      ∀ later deeds, Run finished.environment later deeds → (∀ d ∈ deeds, d.selection = none) →
        later.sessions.session = none ∧ ∀ d ∈ deeds, d.isInert) ∧
    ((Frame.width - 1) * max settings.scale 1 < Word.limit →
      (∃ world ∈ worlds, ∀ events, world.polled = .ok events → .quit ∈ events) →
      ∃ finished result, env.run answer worlds = .ok finished ∧ finished.result = some result) := by
  have inOrder := reached.acts.inOrder (inOrder_new factory settings keys catalog sinks loader)
  constructor
  · intro finished result h ended
    obtain ⟨gone, last, env', stepped, hworlds, on, hstep, hlast, rfl, hfinished⟩ := run_ending h ended
    obtain ⟨deeds, acts⟩ := on.acts
    have inOrder' := acts.inOrder inOrder
    have stopped := ((step_acts hstep).inOrder inOrder').stopped
    rw [hfinished]
    refine ⟨⟨gone, last, env', stepped, hworlds, on, hstep, inOrder'.ending hstep hlast, rfl⟩, rfl, rfl,
      stopped.quiet, KeyTable.isDown_released, fun later deeds run unselected => ?_⟩
    obtain ⟨hlater, inert⟩ := stopped.run run unselected
    exact ⟨hlater.idle, inert⟩
  · intro fits stops
    obtain ⟨configured, hsettings⟩ :=
      reached.acts.configured (SessionManager.configured_new factory settings keys)
    exact run_ends configured (by rw [hsettings]; exact fits) answer stops

/-- The second picture cannot be shown. By then a key is held and another image is wanted, which arrives
after the end. -/
theorem ends_clean_of_refused_picture :
    let cause : Cause := .other "Broken pipe (os error 32)"
    let sinks : Sinks RecordingDisplay Mute :=
      ⟨{ refusal := fun count => if count = 2 then some cause else none }, .mute⟩
    let machine (k : Nat) : ScriptedMachine := { id := k, redrawCycles := [15] }
    let started := new machine {} .released ["maze", "pong"] sinks
    let answer : RomRequest → Fetched := fun _ => { result := .ok ⟨"maze", [0x12, 0x00], none⟩ }
    let worlds : List Surroundings :=
      [{ polled := .ok [.selectSlot 0], answered := 1 },
        { polled := .ok [.key 'w' true, .selectSlot 1] }, { polled := .ok [.quit] }]
    let late : Surroundings := { polled := .ok [], answered := 1 }
    ∃ finished stepped, started.run answer worlds = .ok finished ∧
      finished.result = some (.error (.terminal cause)) ∧
      finished.environment.loader.waiting.length = 1 ∧
      finished.environment.sessions.state = .idle ∧ finished.environment.refresh.pending = [] ∧
      (∀ key, finished.environment.sessions.keys.isDown key = false) ∧
      finished.environment.step answer late = .ok stepped ∧
      stepped.environment.loader.waiting = [] ∧ stepped.environment.sessions.session = none := by
  intro cause sinks machine started answer worlds late
  let played := started.run answer worlds >>= fun finished =>
    (finished.environment.step answer late).map fun stepped => (finished, stepped)
  let check (ended : Finished ScriptedMachine RecordingDisplay Mute ×
      Outcome ScriptedMachine RecordingDisplay Mute (Except ConsoleError Flow)) : Bool :=
    ended.1.result == some (.error (.terminal cause)) &&
    ended.1.environment.loader.waiting.length == 1 && ended.2.environment.loader.waiting.isEmpty &&
    (ended.1.environment.stepDeeds answer late).all fun d => d.selection.isNone
  have checked : played.toOption.any check = true := by decide +kernel
  obtain ⟨⟨finished, stepped⟩, hplayed⟩ : ∃ ended, played = .ok ended := by
    cases h : played with
    | error fault =>
      rw [h] at checked
      cases checked
    | ok ended => exact ⟨ended, rfl⟩
  rw [hplayed] at checked
  obtain ⟨hchecked, unselected⟩ := Bool.and_eq_true_iff.mp checked
  obtain ⟨hchecked, collected⟩ := Bool.and_eq_true_iff.mp hchecked
  obtain ⟨hresult, outstanding⟩ := Bool.and_eq_true_iff.mp hchecked
  obtain ⟨hfinished, hlate⟩ : started.run answer worlds = .ok finished ∧
      finished.environment.step answer late = .ok stepped := by
    obtain ⟨ended, hended, hafter⟩ := ArithmeticFault.bind_eq_ok_iff.mp hplayed
    cases hstep : ended.environment.step answer late with
    | error fault =>
      rw [hstep] at hafter
      cases hafter
    | ok after =>
      rw [hstep] at hafter
      cases hafter
      exact ⟨hended, hstep⟩
  have failed : finished.result = some (.error (.terminal cause)) := eq_of_beq hresult
  obtain ⟨ends, -⟩ := ends_clean (.start : Run started started []) answer worlds
  obtain ⟨-, state, -, queue, keys, after⟩ := ends finished _ hfinished failed
  have later := (Run.start : Run finished.environment finished.environment []).step answer late stepped hlate
  obtain ⟨idle, -⟩ := after _ _ later fun d hd =>
    Option.isNone_iff_eq_none.mp (List.all_eq_true.mp unselected d hd)
  exact ⟨finished, stepped, hfinished, failed, eq_of_beq outstanding, state, queue, keys, hlate,
    List.isEmpty_iff.mp collected, idle⟩

end Chip8Console.Environment
