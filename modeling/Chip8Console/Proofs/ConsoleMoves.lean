import Chip8Console.Environment
import Chip8Console.Proofs.SessionMoves

/-!
The moves of the console. Whatever it is asked to do comes down to a few acts on its parts, told here
once with what they came to: whatever each of them preserves holds at every point of every run.
-/
namespace Chip8Console

namespace Environment
variable {M D S : Type}

def new (factory : Nat → M) (settings : SchedulerSettings) (keys : KeyTable) (catalog : List String)
    (sinks : Sinks D S) : Environment M D S :=
  { sessions := .new factory settings keys, catalog, sinks }

section FinishLoad
variable [Machine M] [Display D] (env : Environment M D S) (load : LoadResult)

/-- Delivering a load is, for the sessions, the end of a selection. -/
theorem finishLoad_sessions : (env.finishLoad load).1.sessions =
    (env.sessions.completeLoad load.1 load.2 env.refresh).manager := by
  simp only [finishLoad]
  split
  · split <;> rfl
  · rfl
  · rfl

/-- Delivering a load does to the queue of ticks what the end of the selection does. -/
theorem finishLoad_refresh : (env.finishLoad load).1.refresh =
    (env.sessions.completeLoad load.1 load.2 env.refresh).refresh := by
  simp only [finishLoad]
  split
  · split <;> rfl
  · rfl
  · rfl

/-- Delivering a load takes nothing from the worker and hands it nothing. -/
theorem finishLoad_loader : (env.finishLoad load).1.loader = env.loader := by
  simp only [finishLoad]
  split
  · split <;> rfl
  · rfl
  · rfl

end FinishLoad

inductive Deed where
  /-- an image was asked for, while this session was running -/
  | selected (ticket : LoadTicket) (request : RomRequest) (running : Option Token)
  | answered (ticket : LoadTicket) (request : RomRequest) (result : Except ConsoleError Rom)
  | delivered (load : LoadResult) (result : Except ConsoleError (Option Token))
  | ticked (token : Token) (result : Except ConsoleError TickStatus)
  | tornDown

def selectDeeds (env : Environment M D S) (request : RomRequest) : List Deed :=
  [.selected env.sessions.beginLoad.1 request (env.sessions.session.map Session.token)]

def selectSlotDeeds (env : Environment M D S) (slot : Nat) : List Deed :=
  match env.catalog[slot]? with
  | none => []
  | some name => env.selectDeeds (.named name)

def handleDeeds (env : Environment M D S) : HostEvent → List Deed
  | .selectSlot slot => env.selectSlotDeeds slot
  | .key _ _ => []
  | .quit => []

def loadSomeDeeds (answer : RomRequest → Fetched) (loader : RomLoader) : Nat → List Deed
  | 0 => []
  | count + 1 =>
    (match loader.waiting with
      | [] => []
      | (ticket, request) :: _ => [.answered ticket request (answer request).result]) ++
      loadSomeDeeds answer (loader.work answer) count

variable [Machine M] [Display D] [Sound S]

def handleAllDeeds (env : Environment M D S) : List HostEvent → List Deed
  | [] => []
  | event :: rest =>
    env.handleDeeds event ++
      match (env.handle event).result with
      | .quit => []
      | .goOn => (env.handle event).environment.handleAllDeeds rest

def finishAllDeeds (env : Environment M D S) : List LoadResult → List Deed
  | [] => []
  | load :: rest =>
    .delivered load (env.sessions.completeLoad load.1 load.2 env.refresh).result ::
      (env.finishLoad load).1.finishAllDeeds rest

def runTicksDeeds (env : Environment M D S) (dice : Dice) : List Token → List Deed
  | [] => []
  | token :: rest =>
    match env.sessions.onTick token env.refresh env.sinks dice with
    | .error _ => []
    | .ok ran =>
      .ticked token ran.result ::
        match ran.result with
        | .error _ => []
        | .ok _ =>
          runTicksDeeds
            { env with sessions := ran.manager, refresh := ran.refresh, sinks := ran.sinks } dice rest

def refreshScreenDeeds (env : Environment M D S) (dice : Dice) : List Deed :=
  let collected := { env with loader := env.loader.poll.2 }
  let finished := (collected.finishAll env.loader.poll.1).1
  collected.finishAllDeeds env.loader.poll.1 ++
    { finished with refresh := finished.refresh.fire.2 }.runTicksDeeds dice finished.refresh.fire.1

def stepDeeds (env : Environment M D S) (answer : RomRequest → Fetched) (world : Surroundings) :
    List Deed :=
  match world.polled with
  | .error _ => []
  | .ok events =>
    let handled := env.handleAll events
    env.handleAllDeeds events ++
      match handled.result with
      | .quit => []
      | .goOn =>
        loadSomeDeeds answer handled.environment.loader world.answered ++
          (handled.environment.loadSome answer world.answered).refreshScreenDeeds world.dice

/-- A run of the console with what it came to. The worker may move between any two calls, and each time
the images may be others. -/
inductive Run (env₀ : Environment M D S) : Environment M D S → List Deed → Prop
  | start : Run env₀ env₀ []
  | select {env : Environment M D S} {deeds : List Deed} (run : Run env₀ env deeds)
      (request : RomRequest) : Run env₀ (env.select request).1 (deeds ++ env.selectDeeds request)
  | selectSlot {env : Environment M D S} {deeds : List Deed} (run : Run env₀ env deeds)
      (slot : Nat) : Run env₀ (env.selectSlot slot).environment (deeds ++ env.selectSlotDeeds slot)
  | handle {env : Environment M D S} {deeds : List Deed} (run : Run env₀ env deeds)
      (event : HostEvent) : Run env₀ (env.handle event).environment (deeds ++ env.handleDeeds event)
  | loadSome {env : Environment M D S} {deeds : List Deed} (run : Run env₀ env deeds)
      (answer : RomRequest → Fetched) (count : Nat) :
      Run env₀ (env.loadSome answer count) (deeds ++ loadSomeDeeds answer env.loader count)
  | step {env : Environment M D S} {deeds : List Deed} (run : Run env₀ env deeds)
      (answer : RomRequest → Fetched) (world : Surroundings)
      (stepped : Outcome M D S (Except ConsoleError Flow)) (h : env.step answer world = .ok stepped) :
      Run env₀ stepped.environment (deeds ++ env.stepDeeds answer world)
  | teardown {env : Environment M D S} {deeds : List Deed} (run : Run env₀ env deeds) :
      Run env₀ env.teardown.1 (deeds ++ [.tornDown])

inductive Phase where
  /-- between two calls, or with the host's events at hand -/
  | listening
  /-- with these loads at hand -/
  | delivering (loads : List LoadResult)
  /-- with these ticks at hand -/
  | ticking (due : List Token)

inductive Act : Environment M D S → Phase → List Deed → Environment M D S → Phase → Prop
  | select (env : Environment M D S) (request : RomRequest) :
      Act env .listening (env.selectDeeds request) (env.select request).1 .listening
  | key (env : Environment M D S) (c : Char) (pressed : Bool) :
      Act env .listening [] { env with sessions := (env.sessions.keyEvent c pressed).1 } .listening
  | report (env : Environment M D S) (e : ConsoleError) :
      Act env .listening [] (env.report e).1 .listening
  | work (env : Environment M D S) (answer : RomRequest → Fetched) (ticket : LoadTicket)
      (request : RomRequest) (rest : List (LoadTicket × RomRequest))
      (waiting : env.loader.waiting = (ticket, request) :: rest) :
      Act env .listening [.answered ticket request (answer request).result]
        { env with loader := env.loader.work answer } .listening
  | collect (env : Environment M D S) :
      Act env .listening [] { env with loader := env.loader.poll.2 } (.delivering env.loader.poll.1)
  | deliver (env : Environment M D S) (load : LoadResult) (rest : List LoadResult) :
      Act env (.delivering (load :: rest))
        [.delivered load (env.sessions.completeLoad load.1 load.2 env.refresh).result]
        (env.finishLoad load).1 (.delivering rest)
  | fire (env : Environment M D S) :
      Act env (.delivering []) [] { env with refresh := env.refresh.fire.2 }
        (.ticking env.refresh.fire.1)
  | tick (env : Environment M D S) (token : Token) (rest : List Token) (dice : Dice)
      (ran : SessionManager.Delivered M RefreshQueue D S) (status : TickStatus)
      (h : env.sessions.onTick token env.refresh env.sinks dice = .ok ran)
      (result : ran.result = .ok status) :
      Act env (.ticking (token :: rest)) [.ticked token (.ok status)]
        { env with sessions := ran.manager, refresh := ran.refresh, sinks := ran.sinks }
        (.ticking rest)
  | fail (env : Environment M D S) (token : Token) (rest : List Token) (dice : Dice)
      (ran : SessionManager.Delivered M RefreshQueue D S) (e : ConsoleError)
      (h : env.sessions.onTick token env.refresh env.sinks dice = .ok ran)
      (result : ran.result = .error e) :
      Act env (.ticking (token :: rest)) [.ticked token (.error e)]
        { env with sessions := ran.manager, refresh := ran.refresh, sinks := ran.sinks } .listening
  | rest (env : Environment M D S) : Act env (.ticking []) [] env .listening
  | teardown (env : Environment M D S) : Act env .listening [.tornDown] env.teardown.1 .listening

inductive Acts : Environment M D S → Phase → List Deed → Environment M D S → Phase → Prop
  | refl (env : Environment M D S) (phase : Phase) : Acts env phase [] env phase
  | cons {env env' env'' : Environment M D S} {phase phase' phase'' : Phase}
      {deeds deeds' : List Deed} (act : Act env phase deeds env' phase')
      (acts : Acts env' phase' deeds' env'' phase'') : Acts env phase (deeds ++ deeds') env'' phase''

theorem Act.acts {env env' : Environment M D S} {phase phase' : Phase} {deeds : List Deed}
    (act : Act env phase deeds env' phase') : Acts env phase deeds env' phase' := by
  have h := Acts.cons act (.refl env' phase')
  rwa [List.append_nil] at h

/-- Acts may go on where others ended. -/
theorem Acts.append {env env' env'' : Environment M D S} {phase phase' phase'' : Phase}
    {deeds deeds' : List Deed} (first : Acts env phase deeds env' phase')
    (second : Acts env' phase' deeds' env'' phase'') :
    Acts env phase (deeds ++ deeds') env'' phase'' := by
  induction first with
  | refl env phase => exact second
  | cons act acts ih =>
    rw [List.append_assoc]
    exact .cons act (ih second)

/-- Whatever every act preserves, a sequence of acts preserves. -/
theorem Acts.invariant {P : List Deed → Environment M D S → Phase → Prop}
    (keeps : ∀ {before : List Deed} {env env' : Environment M D S} {phase phase' : Phase}
      {deeds : List Deed}, P before env phase → Act env phase deeds env' phase' →
        P (before ++ deeds) env' phase')
    {env env' : Environment M D S} {phase phase' : Phase} {deeds : List Deed}
    (acts : Acts env phase deeds env' phase') (before : List Deed) (h : P before env phase) :
    P (before ++ deeds) env' phase' := by
  induction acts generalizing before with
  | refl env phase =>
    rw [List.append_nil]
    exact h
  | cons act acts ih =>
    rw [← List.append_assoc]
    exact ih _ (keeps h act)

private theorem selectSlot_acts (env : Environment M D S) (slot : Nat) :
    Acts env .listening (env.selectSlotDeeds slot) (env.selectSlot slot).environment .listening := by
  unfold selectSlot selectSlotDeeds
  cases env.catalog[slot]? with
  | none => exact .refl env .listening
  | some name => exact (Act.select env (.named name)).acts

private theorem handle_acts (env : Environment M D S) (event : HostEvent) :
    Acts env .listening (env.handleDeeds event) (env.handle event).environment .listening := by
  cases event with
  | key c pressed => exact (Act.key env c pressed).acts
  | quit => exact .refl env .listening
  | selectSlot slot =>
    have selected := env.selectSlot_acts slot
    simp only [handle, handleDeeds]
    cases (env.selectSlot slot).result with
    | ok done => exact selected
    | error e =>
      have h := selected.append (Act.report _ e).acts
      rwa [List.append_nil] at h

/-- Handling what the host says is a row of acts, one for each event up to one that quits. -/
theorem handleAll_acts (env : Environment M D S) (events : List HostEvent) :
    Acts env .listening (env.handleAllDeeds events) (env.handleAll events).environment .listening := by
  induction events generalizing env with
  | nil => exact .refl env .listening
  | cons event rest ih =>
    have first := env.handle_acts event
    simp only [handleAll, handleAllDeeds]
    cases (env.handle event).result with
    | quit =>
      rw [List.append_nil]
      exact first
    | goOn => exact first.append (ih _)

/-- What the worker answers in one go is a row of acts. -/
theorem loadSome_acts (env : Environment M D S) (answer : RomRequest → Fetched) (count : Nat) :
    Acts env .listening (loadSomeDeeds answer env.loader count) (env.loadSome answer count)
      .listening := by
  induction count generalizing env with
  | zero => exact .refl env .listening
  | succ count ih =>
    have rest := ih { env with loader := env.loader.work answer }
    unfold loadSomeDeeds
    cases waiting : env.loader.waiting with
    | nil =>
      have same : env.loader.work answer = env.loader := by
        unfold RomLoader.work
        rw [waiting]
      rw [same] at rest
      rw [List.nil_append, same, loadSome, RomLoader.workMany, same]
      exact rest
    | cons first others =>
      exact (Act.work env answer first.1 first.2 others waiting).acts.append rest

/-- The loads at hand are delivered in a row of acts, and none is left. -/
theorem finishAll_acts (env : Environment M D S) (loads : List LoadResult) :
    Acts env (.delivering loads) (env.finishAllDeeds loads) (env.finishAll loads).1
      (.delivering []) := by
  induction loads generalizing env with
  | nil => exact .refl env _
  | cons load rest ih => exact (Act.deliver env load rest).acts.append (ih _)

private theorem runTicks_acts {env : Environment M D S} {dice : Dice} {due : List Token}
    {ran : Outcome M D S (Except ConsoleError Flow)} (h : env.runTicks dice due = .ok ran) :
    Acts env (.ticking due) (env.runTicksDeeds dice due) ran.environment .listening := by
  induction due generalizing env ran with
  | nil =>
    cases h
    exact (Act.rest env).acts
  | cons token rest ih =>
    obtain ⟨first, hfirst, hrest⟩ := ArithmeticFault.bind_eq_ok_iff.mp h
    unfold runTicksDeeds
    simp only [hfirst]
    cases result : first.result with
    | error e =>
      rw [result] at hrest
      cases hrest
      exact (Act.fail env token rest dice first e hfirst result).acts
    | ok status =>
      rw [result] at hrest
      obtain ⟨others, hothers, hran⟩ := ArithmeticFault.bind_eq_ok_iff.mp hrest
      cases hran
      have tail := ih hothers
      exact (Act.tick env token rest dice first status hfirst result).acts.append tail

private theorem refreshScreen_acts {env : Environment M D S} {dice : Dice}
    {ran : Outcome M D S (Except ConsoleError Flow)} (h : env.refreshScreen dice = .ok ran) :
    Acts env .listening (env.refreshScreenDeeds dice) ran.environment .listening := by
  obtain ⟨ticked, hticked, hran⟩ := ArithmeticFault.bind_eq_ok_iff.mp h
  cases hran
  have delivered := (Act.collect env).acts.append (finishAll_acts _ env.loader.poll.1)
  have all := (delivered.append (Act.fire _).acts).append (runTicks_acts hticked)
  simp only [List.nil_append, List.append_nil] at all
  exact all

/-- A step is a row of acts between two moments at which the console listens. -/
theorem step_acts {env : Environment M D S} {answer : RomRequest → Fetched} {world : Surroundings}
    {stepped : Outcome M D S (Except ConsoleError Flow)} (h : env.step answer world = .ok stepped) :
    Acts env .listening (env.stepDeeds answer world) stepped.environment .listening := by
  unfold step at h
  unfold stepDeeds
  cases hpolled : world.polled with
  | error cause =>
    rw [hpolled] at h
    cases h
    exact .refl env .listening
  | ok events =>
    simp only [hpolled] at h ⊢
    have handled := env.handleAll_acts events
    cases hresult : (env.handleAll events).result with
    | quit =>
      rw [hresult] at h
      cases h
      rw [List.append_nil]
      exact handled
    | goOn =>
      rw [hresult] at h
      obtain ⟨ran, hran, hstepped⟩ := ArithmeticFault.bind_eq_ok_iff.mp h
      cases hstepped
      have refreshed := refreshScreen_acts hran
      exact handled.append ((loadSome_acts _ answer world.answered).append refreshed)

/-- A run is a row of acts, so that what every act preserves holds after it. -/
theorem Run.acts {env₀ env : Environment M D S} {deeds : List Deed} (run : Run env₀ env deeds) :
    Acts env₀ .listening deeds env .listening := by
  induction run with
  | start => exact .refl env₀ .listening
  | select run request ih => exact ih.append (Act.select _ request).acts
  | selectSlot run slot ih => exact ih.append (selectSlot_acts _ slot)
  | handle run event ih => exact ih.append (handle_acts _ event)
  | loadSome run answer count ih => exact ih.append (loadSome_acts _ answer count)
  | step run answer world stepped h ih => exact ih.append (step_acts h)
  | teardown run ih => exact ih.append (Act.teardown _).acts

/-- Whatever every act preserves holds throughout a run. -/
theorem Run.invariant {P : List Deed → Environment M D S → Phase → Prop}
    (keeps : ∀ {before : List Deed} {env env' : Environment M D S} {phase phase' : Phase}
      {deeds : List Deed}, P before env phase → Act env phase deeds env' phase' →
        P (before ++ deeds) env' phase')
    {env₀ env : Environment M D S} {deeds : List Deed} (start : P [] env₀ .listening)
    (run : Run env₀ env deeds) : P deeds env .listening :=
  Acts.invariant keeps run.acts [] start

/-- An act is at most one move of the session manager. -/
theorem Act.sessions {env env' : Environment M D S} {phase phase' : Phase} {deeds : List Deed}
    (act : Act env phase deeds env' phase') :
    env'.sessions = env.sessions ∨
      ∃ e told, SessionManager.Step D S env.sessions env.refresh e told env'.sessions env'.refresh := by
  cases act with
  | select request => exact .inr ⟨_, _, .beginLoad⟩
  | key c pressed => exact .inr ⟨_, _, .keyEvent c pressed _ rfl⟩
  | report e => exact .inl rfl
  | work answer ticket request rest waiting => exact .inl rfl
  | collect => exact .inl rfl
  | deliver load rest =>
    rw [finishLoad_sessions, finishLoad_refresh]
    exact .inr ⟨_, _, .completeLoad load.1 load.2 _ rfl⟩
  | fire => exact .inl rfl
  | tick token rest dice ran status h result => exact .inr ⟨_, _, .onTick token _ dice ran h⟩
  | fail token rest dice ran e h result => exact .inr ⟨_, _, .onTick token _ dice ran h⟩
  | rest => exact .inl rfl
  | teardown => exact .inr ⟨_, _, .teardown⟩

/-- A run of the console is, among other things, a run of its session manager. -/
theorem Run.sessions {env₀ env : Environment M D S} {deeds : List Deed} (run : Run env₀ env deeds) :
    ∃ events journal,
      SessionManager.Run RefreshQueue D S env₀.sessions env.sessions events journal := by
  refine run.invariant (P := fun _ env _ => ∃ events journal,
    SessionManager.Run RefreshQueue D S env₀.sessions env.sessions events journal) ?_ ⟨_, _, .start⟩
  rintro before env env' phase phase' deeds ⟨events, journal, h⟩ act
  rcases act.sessions with same | ⟨e, told, step⟩
  · rw [same]
    exact ⟨events, journal, h⟩
  · exact ⟨_, _, h.step step⟩

/-- No act loses the settings. -/
theorem Acts.configured {env env' : Environment M D S} {phase phase' : Phase} {deeds : List Deed}
    (acts : Acts env phase deeds env' phase') (h : env.sessions.Configured) :
    env'.sessions.Configured ∧ env'.sessions.settings = env.sessions.settings := by
  refine Acts.invariant (P := fun _ env' _ =>
    env'.sessions.Configured ∧ env'.sessions.settings = env.sessions.settings) ?_ acts [] ⟨h, rfl⟩
  rintro before env env' phase phase' deeds ⟨hconfigured, hsettings⟩ act
  rcases act.sessions with same | ⟨e, told, step⟩
  · rw [same]
    exact ⟨hconfigured, hsettings⟩
  · exact ⟨step.configured hconfigured, step.fixed.2.1.trans hsettings⟩

/-- Over a whole run the sessions keep to the settings that the console began with. -/
theorem Run.configured {factory : Nat → M} {settings : SchedulerSettings} {keys : KeyTable}
    {catalog : List String} {sinks : Sinks D S} {env : Environment M D S} {deeds : List Deed}
    (run : Run (new factory settings keys catalog sinks) env deeds) :
    env.sessions.Configured ∧ env.sessions.settings = settings :=
  run.acts.configured (SessionManager.configured_new factory settings keys)

private theorem runTicks_isOk {env : Environment M D S} (configured : env.sessions.Configured)
    (fits : (Frame.width - 1) * max env.sessions.settings.scale 1 < Word.limit) (dice : Dice)
    (due : List Token) : ∃ ran, env.runTicks dice due = .ok ran := by
  induction due generalizing env with
  | nil => exact ⟨_, rfl⟩
  | cons token rest ih =>
    obtain ⟨first, hfirst⟩ := configured.onTick_isOk fits token env.refresh env.sinks dice
    have step := SessionManager.Step.onTick token env.sinks dice first hfirst
    let after : Environment M D S :=
      { env with sessions := first.manager, refresh := first.refresh, sinks := first.sinks }
    obtain ⟨others, hothers⟩ : ∃ others, after.runTicks dice rest = .ok others :=
      ih (step.configured configured) (by rw [step.fixed.2.1]; exact fits)
    refine ArithmeticFault.bind_isOk hfirst ?_
    cases first.result with
    | error e => exact ⟨_, rfl⟩
    | ok status => exact ArithmeticFault.bind_isOk hothers ⟨_, rfl⟩

/-- No step ends in a fault while the blocks of the picture have words for corners. -/
theorem step_isOk {env : Environment M D S} (configured : env.sessions.Configured)
    (fits : (Frame.width - 1) * max env.sessions.settings.scale 1 < Word.limit)
    (answer : RomRequest → Fetched) (world : Surroundings) :
    ∃ stepped, env.step answer world = .ok stepped := by
  unfold step
  cases world.polled with
  | error cause => exact ⟨_, rfl⟩
  | ok events =>
    simp only
    cases (env.handleAll events).result with
    | quit => exact ⟨_, rfl⟩
    | goOn =>
      let loaded := (env.handleAll events).environment.loadSome answer world.answered
      have delivered := (env.handleAll_acts events).append ((loadSome_acts _ answer world.answered).append
        ((Act.collect loaded).acts.append (finishAll_acts _ loaded.loader.poll.1)))
      obtain ⟨hconfigured, hsettings⟩ := (delivered.append (Act.fire _).acts).configured configured
      obtain ⟨ran, hran⟩ :=
        runTicks_isOk hconfigured (by rw [hsettings]; exact fits) world.dice _
      obtain ⟨refreshed, hrefreshed⟩ : ∃ refreshed, loaded.refreshScreen world.dice = .ok refreshed :=
        ArithmeticFault.bind_isOk hran ⟨_, rfl⟩
      exact ArithmeticFault.bind_isOk hrefreshed ⟨_, rfl⟩

end Environment

end Chip8Console
