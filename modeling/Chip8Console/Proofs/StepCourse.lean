import Chip8Console.Proofs.OwedTick

/-!
What a step of the console comes to: the host cannot be heard, the host wants to quit, or the loads are
delivered and the tick that is owed then is run, if one is.
-/
namespace Chip8Console

/-- Only the screen can fail a tick. -/
theorem Scheduler.tick_error {M D S : Type} [Machine M] [Display D] [Sound S] {s : Scheduler}
    {machine : M} {sinks : Sinks D S} {dice : Dice} {ticked : Ticked M D S} {e : ConsoleError}
    (h : s.tick machine sinks dice = .ok ticked) (failed : ticked.result = .error e) :
    ∃ cause, e = .terminal cause := by
  obtain ⟨shown, display, -, rfl⟩ := tick_inversion h
  cases shown with
  | ok shown => cases failed
  | error cause =>
    cases failed
    exact ⟨cause, rfl⟩

namespace Environment
variable {M D S : Type} [Machine M] [Display D]

/-- The console once the host's events are acted on and the finished loads are delivered, with what was
told on the way. -/
def delivered (env : Environment M D S) (events : List HostEvent) (answer : RomRequest → Fetched)
    (count : Nat) : Environment M D S × Journal :=
  let handled := env.handleAll events
  let loaded := handled.environment.loadSome answer count
  let finished := { loaded with loader := loaded.loader.poll.2 }.finishAll loaded.loader.poll.1
  (finished.1, handled.journal ++ finished.2)

private theorem handle_result (env : Environment M D S) {event : HostEvent} (h : event ≠ .quit) :
    (env.handle event).result = .goOn := by
  cases event with
  | key c pressed => rfl
  | quit => exact absurd rfl h
  | selectSlot slot =>
    simp only [handle]
    split <;> rfl

/-- The console goes on unless the host wants to quit. -/
theorem handleAll_result (env : Environment M D S) {events : List HostEvent} (h : .quit ∉ events) :
    (env.handleAll events).result = .goOn := by
  induction events generalizing env with
  | nil => rfl
  | cons event rest ih =>
    have hevent := (List.ne_of_not_mem_cons h).symm
    have hrest := List.not_mem_of_not_mem_cons h
    simp only [handleAll, env.handle_result hevent]
    exact ih _ hrest

/-- What the host says after it wants to quit is not acted on. -/
theorem handleAll_quit (env : Environment M D S) {before : List HostEvent} (h : .quit ∉ before)
    (after : List HostEvent) : env.handleAll (before ++ .quit :: after) =
      ⟨.quit, (env.handleAll before).environment, (env.handleAll before).journal⟩ := by
  induction before generalizing env with
  | nil => rfl
  | cons event rest ih =>
    have hevent := (List.ne_of_not_mem_cons h).symm
    have hrest := List.not_mem_of_not_mem_cons h
    simp only [List.cons_append, handleAll, env.handle_result hevent, ih _ hrest]

/-- What the host says behind a wish to quit is not heard. -/
theorem handleAllDeeds_quit (env : Environment M D S) {before : List HostEvent} (h : .quit ∉ before)
    (after : List HostEvent) :
    env.handleAllDeeds (before ++ .quit :: after) = env.handleAllDeeds before := by
  induction before generalizing env with
  | nil => rfl
  | cons event rest ih =>
    have hevent := (List.ne_of_not_mem_cons h).symm
    have hrest := List.not_mem_of_not_mem_cons h
    simp only [List.cons_append, handleAllDeeds, env.handle_result hevent, ih _ hrest]

variable [Sound S]

/-- Hearing the host and delivering the finished loads is a row of acts. -/
theorem delivered_acts (env : Environment M D S) (events : List HostEvent)
    (answer : RomRequest → Fetched) (count : Nat) :
    ∃ deeds, Acts env .listening deeds (env.delivered events answer count).1 (.delivering []) := by
  have handled := env.handleAll_acts events
  have loaded := handled.append (loadSome_acts _ answer count)
  have collected := loaded.append (Act.collect _).acts
  exact ⟨_, collected.append (finishAll_acts _ _)⟩

inductive Course (env : Environment M D S) (answer : RomRequest → Fetched) (world : Surroundings) :
    Outcome M D S (Except ConsoleError Flow) → Prop
  | unheard {cause : Cause} (polled : world.polled = .error cause) :
      Course env answer world ⟨.error (.terminal cause), env, []⟩
  | quit {before after : List HostEvent} (polled : world.polled = .ok (before ++ .quit :: after))
      (first : .quit ∉ before) :
      Course env answer world
        ⟨.ok .quit, (env.handleAll before).environment, (env.handleAll before).journal⟩
  | refreshed {events : List HostEvent} (polled : world.polled = .ok events)
      (stays : .quit ∉ events) (ran : Outcome M D S (Except ConsoleError Flow))
      (h : runTicks { (env.delivered events answer world.answered).1 with
          refresh := (env.delivered events answer world.answered).1.refresh.fire.2 } world.dice
        (env.delivered events answer world.answered).1.refresh.fire.1 = .ok ran) :
      Course env answer world
        { ran with journal := (env.delivered events answer world.answered).2 ++ ran.journal }

/-- Every step takes one of the courses that `Course` lists. -/
theorem step_course {env : Environment M D S} {answer : RomRequest → Fetched} {world : Surroundings}
    {stepped : Outcome M D S (Except ConsoleError Flow)} (h : env.step answer world = .ok stepped) :
    Course env answer world stepped := by
  unfold step at h
  cases polled : world.polled with
  | error cause =>
    rw [polled] at h
    cases h
    exact .unheard polled
  | ok events =>
    simp only [polled] at h
    by_cases asked : .quit ∈ events
    · obtain ⟨before, after, rfl, first⟩ := List.eq_append_cons_of_mem asked
      rw [env.handleAll_quit first] at h
      cases h
      exact .quit polled first
    · rw [env.handleAll_result asked] at h
      obtain ⟨refreshed, hrefreshed, hstepped⟩ := ArithmeticFault.bind_eq_ok_iff.mp h
      obtain ⟨ran, hran, hticked⟩ := ArithmeticFault.bind_eq_ok_iff.mp hrefreshed
      cases hstepped
      cases hticked
      rw [← List.append_assoc]
      exact .refreshed polled asked ran hran

/-- What a refresh can come to on a console on which no tick waits but the one that is owed. -/
inductive Refresh (env : Environment M D S) (dice : Dice) :
    Outcome M D S (Except ConsoleError Flow) → Prop
  | idle (none : env.sessions.owed = []) :
      Refresh env dice ⟨.ok .goOn, { env with refresh := env.refresh.fire.2 }, []⟩
  | ticked (s : Session M) (ticked : Scheduler.Ticked M D S) (outcome : TickOutcome)
      (running : env.sessions.session = some s) (waits : s.pending.isSome)
      (ran : s.scheduler.tick s.machine env.sinks dice = .ok ticked)
      (result : ticked.result = .ok outcome) :
      Refresh env dice ⟨.ok .goOn,
        { env with
          sessions := env.sessions.advanced s ticked (some (env.refresh.fire.2.request s.token).1)
          refresh := (env.refresh.fire.2.request s.token).2
          sinks := ticked.sinks },
        ticked.journal⟩
  | failed (s : Session M) (ticked : Scheduler.Ticked M D S) (cause : Cause)
      (running : env.sessions.session = some s) (waits : s.pending.isSome)
      (ran : s.scheduler.tick s.machine env.sinks dice = .ok ticked)
      (result : ticked.result = .error (.terminal cause)) :
      Refresh env dice ⟨.error (.terminal cause),
        { env with
          sessions := env.sessions.advanced s ticked none
          refresh := env.refresh.fire.2
          sinks := ticked.sinks },
        ticked.journal⟩

/-- A refresh runs the tick that is owed, if one is, and no other. -/
theorem InOrder.refresh {env : Environment M D S} {dice : Dice}
    {ran : Outcome M D S (Except ConsoleError Flow)} (h : InOrder env (.delivering []))
    (hran : runTicks { env with refresh := env.refresh.fire.2 } dice env.refresh.fire.1 = .ok ran) :
    Refresh env dice ran := by
  have queued : env.refresh.pending = env.sessions.owed := h.waiting
  have fired := h.act (.fire env)
  cases hdue : env.refresh.fire.1 with
  | nil =>
    rw [hdue] at hran
    cases hran
    refine .idle ?_
    rw [← queued]
    exact List.map_eq_nil_iff.mp hdue
  | cons token rest =>
    rw [hdue] at hran fired
    obtain ⟨s, live, waits, rfl, -⟩ := fired.due
    obtain ⟨running, -, rfl⟩ := SessionManager.live?_eq_some_iff.mp live
    obtain ⟨first, hfirst, hrest⟩ := ArithmeticFault.bind_eq_ok_iff.mp hran
    cases SessionManager.onTick_delivery hfirst with
    | stale dead =>
      rw [live] at dead
      cases dead
    | failed session ticked e live' ran result =>
      obtain rfl := Option.some.inj (live.symm.trans live')
      cases hrest
      obtain ⟨cause, rfl⟩ := Scheduler.tick_error ran result
      exact .failed s ticked cause running waits ran result
    | ran session ticked outcome live' ran result =>
      obtain rfl := Option.some.inj (live.symm.trans live')
      cases hrest
      rw [List.append_nil]
      exact .ticked s ticked outcome running waits ran result

end Environment

end Chip8Console
