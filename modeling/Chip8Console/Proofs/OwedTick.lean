import Chip8Console.Proofs.ConsoleMoves

/-!
The tick that the running session has asked for. No other tick ever waits in the queue of the console or
is at hand, so the queue is empty as soon as the session is stopped.
-/
namespace Chip8Console

namespace SessionManager
variable {M : Type}

/-- The tick that the running session waits for. After a failing tick it waits for none. -/
def owed (m : SessionManager M) : List (TickHandle × Token) :=
  match m.session with
  | none => []
  | some s => (s.pending.map fun handle => (handle, s.token)).toList

private theorem owed_of_idle {m : SessionManager M} (idle : m.session = none) : m.owed = [] := by
  rw [owed, idle]

/-- What is owed to the session that runs is the tick it has pending. -/
theorem owed_of_session {m : SessionManager M} {s : Session M} (running : m.session = some s) :
    m.owed = (s.pending.map fun handle => (handle, s.token)).toList := by
  rw [owed, running]

private theorem retire_pending {m : SessionManager M} {queue : RefreshQueue} (h : queue.pending = m.owed) :
    (m.retire queue).1.pending = [] := by
  unfold retire
  cases hs : m.session with
  | none => exact h.trans (owed_of_idle hs)
  | some s =>
    rw [owed_of_session hs] at h
    simp only [withdraw]
    cases hpending : s.pending with
    | none =>
      rw [hpending] at h
      exact h
    | some handle =>
      rw [hpending] at h
      simp [RefreshHost.cancel, RefreshQueue.cancel, h]

end SessionManager

namespace Environment
variable {M D S : Type}

/-- The ticks that wait in the queue, or are at hand, are those that are owed. -/
def Phase.Waiting (m : SessionManager M) (queue : RefreshQueue) : Phase → Prop
  | .ticking due =>
    queue.pending = [] ∧ due = m.owed.map Prod.snd ∨ queue.pending = m.owed ∧ due = []
  | _ => queue.pending = m.owed

/-- The live token is that of the running session, and no tick waits but the one it asked for. -/
structure InOrder (env : Environment M D S) (phase : Phase) : Prop where
  live : env.sessions.tokens.active = env.sessions.session.map Session.token
  waiting : phase.Waiting env.sessions env.refresh

/-- A console with nothing running is in order, whatever its worker is busy with. -/
theorem inOrder_new (factory : Nat → M) (settings : SchedulerSettings) (keys : KeyTable)
    (catalog : List String) (sinks : Sinks D S) (loader : RomLoader) :
    InOrder { new factory settings keys catalog sinks with loader } .listening := ⟨rfl, rfl⟩

/-- A tick at hand is that of the running session, and there is no other. -/
theorem InOrder.due {env : Environment M D S} {token : Token} {rest : List Token}
    (h : InOrder env (.ticking (token :: rest))) :
    ∃ s, env.sessions.live? token = some s ∧ s.pending.isSome ∧ rest = [] ∧
      env.refresh.pending = [] := by
  obtain ⟨hqueue, hdue⟩ | ⟨-, hdue⟩ := h.waiting
  · cases hs : env.sessions.session with
    | none =>
      rw [SessionManager.owed_of_idle hs] at hdue
      cases hdue
    | some s =>
      rw [SessionManager.owed_of_session hs] at hdue
      have hlive := h.live
      rw [hs] at hlive
      cases hpending : s.pending with
      | none =>
        rw [hpending] at hdue
        cases hdue
      | some handle =>
        rw [hpending] at hdue
        obtain ⟨rfl, rfl⟩ := List.cons.inj hdue
        refine ⟨s, SessionManager.live?_eq_some_iff.mpr ⟨hs, hlive, rfl⟩, ?_, rfl, hqueue⟩
        rw [hpending]
        rfl
  · cases hdue

private theorem InOrder.key [Machine M] {env : Environment M D S} (h : InOrder env .listening) (c : Char)
    (pressed : Bool) :
    InOrder { env with sessions := (env.sessions.keyEvent c pressed).1 } .listening := by
  obtain ⟨hlive, hwaiting⟩ := h
  change env.refresh.pending = env.sessions.owed at hwaiting
  generalize hafter : env.sessions.keyEvent c pressed = after
  cases SessionManager.keyEvent_keying hafter with
  | kept => exact ⟨hlive, hwaiting⟩
  | forwarded key session changed running =>
    rw [running] at hlive
    rw [SessionManager.owed_of_session running] at hwaiting
    exact ⟨hlive, hwaiting⟩

private theorem InOrder.deliver [Machine M] [Display D] {env : Environment M D S} {load : LoadResult}
    {rest : List LoadResult} (h : InOrder env (.delivering (load :: rest))) :
    InOrder (env.finishLoad load).1 (.delivering rest) := by
  obtain ⟨hlive, hwaiting⟩ := h
  constructor
  all_goals
    simp only [Phase.Waiting, finishLoad_sessions, finishLoad_refresh]
    generalize hdone : env.sessions.completeLoad load.1 load.2 env.refresh = done
  case live =>
    cases SessionManager.completeLoad_completion hdone with
    | superseded | missing | refused => exact hlive
    | activated => rfl
  case waiting =>
    cases SessionManager.completeLoad_completion hdone with
    | superseded | missing | refused => exact hwaiting
    | activated =>
      change (env.sessions.retire env.refresh).1.pending ++ _ = _
      rw [SessionManager.retire_pending hwaiting]
      rfl

variable [Machine M] [Display D] [Sound S]

private theorem InOrder.onTick {env : Environment M D S} {token : Token} {rest : List Token} {dice : Dice}
    {ran : SessionManager.Delivered M RefreshQueue D S} (h : InOrder env (.ticking (token :: rest)))
    (hran : env.sessions.onTick token env.refresh env.sinks dice = .ok ran) :
    ran.manager.tokens.active = ran.manager.session.map Session.token ∧
      ran.refresh.pending = ran.manager.owed ∧ rest = [] := by
  obtain ⟨s, live, -, hrest, hqueue⟩ := h.due
  obtain ⟨-, hactive, rfl⟩ := SessionManager.live?_eq_some_iff.mp live
  refine and_assoc.mp ⟨?_, hrest⟩
  cases SessionManager.onTick_delivery hran with
  | stale dead =>
    rw [live] at dead
    cases dead
  | failed session ticked e live' =>
    obtain rfl := Option.some.inj (live.symm.trans live')
    exact ⟨hactive, hqueue⟩
  | ran session ticked outcome live' =>
    obtain rfl := Option.some.inj (live.symm.trans live')
    refine ⟨hactive, ?_⟩
    change env.refresh.pending ++ _ = _
    rw [hqueue]
    rfl

/-- Every act keeps the tokens and the queue in order. -/
theorem InOrder.act {env env' : Environment M D S} {phase phase' : Phase} {deeds : List Deed}
    (h : InOrder env phase) (act : Act env phase deeds env' phase') : InOrder env' phase' := by
  cases act with
  | select | report | work | collect => exact ⟨h.live, h.waiting⟩
  | key c pressed => exact h.key c pressed
  | deliver load rest => exact h.deliver
  | fire =>
    have queued : env.refresh.pending = env.sessions.owed := h.waiting
    exact ⟨h.live, .inl ⟨rfl, congrArg (List.map Prod.snd) queued⟩⟩
  | tick token rest dice ran status hran result =>
    obtain ⟨hlive, howed, rfl⟩ := h.onTick hran
    exact ⟨hlive, .inr ⟨howed, rfl⟩⟩
  | fail token rest dice ran e hran result =>
    obtain ⟨hlive, howed, rfl⟩ := h.onTick hran
    exact ⟨hlive, howed⟩
  | rest =>
    refine ⟨h.live, ?_⟩
    obtain ⟨hqueue, hnone⟩ | ⟨howed, -⟩ := h.waiting
    · exact hqueue.trans (List.map_eq_nil_iff.mp hnone.symm).symm
    · exact howed
  | teardown =>
    refine ⟨rfl, ?_⟩
    change (env.sessions.teardown env.refresh).2.1.pending = []
    rw [SessionManager.teardown_refresh]
    exact SessionManager.retire_pending h.waiting

/-- A row of acts keeps the tokens and the queue in order. -/
theorem Acts.inOrder {env env' : Environment M D S} {phase phase' : Phase} {deeds : List Deed}
    (acts : Acts env phase deeds env' phase') (h : InOrder env phase) : InOrder env' phase' :=
  Acts.invariant (P := fun _ env phase => InOrder env phase) InOrder.act acts [] h

end Environment

end Chip8Console
