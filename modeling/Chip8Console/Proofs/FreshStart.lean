import Chip8Console.Machine.Interpreter
import Chip8Console.Proofs.LiveTick
import Chip8Console.Proofs.RigMoves

/-!
Two rigs on which the same image was just begun, one after a past of its own and one after none. They
go on alike: what is left of the past is numbers, which nothing but the numbers themselves depends on.
-/
namespace Chip8Console

/-- What the player and the screen do to a running session. -/
inductive Play where
  | key (c : Char) (pressed : Bool)
  /-- a refresh of the screen: every tick that is due is delivered -/
  | refresh (dice : Dice)

namespace Rig
variable {M D S : Type}

/-- The rig runs this session, and no tick waits in its queue but the one of the session, if any. -/
structure Runs (rig : Rig M D S) (s : Session M) (waiting : Bool) : Prop where
  session : rig.manager.session = some s
  active : rig.manager.tokens.active = some s.token
  due : rig.queue.fire.1 = if waiting then [s.token] else []

/-- Two rigs that run the same session under numbers of their own. -/
structure Mirror (token token' : Token) (rig rig' : Rig M D S) : Prop where
  keys : rig'.manager.keys = rig.manager.keys
  sessions : ∃ s pending' waiting, s.token = token ∧ rig.Runs s waiting ∧
    rig'.Runs { s with token := token', pending := pending' } waiting

/-- A tick waits, and it is to paint whatever its machine does. -/
def Unpainted (rig : Rig M D S) : Prop :=
  rig.queue.fire.1 ≠ [] ∧ ∀ s, rig.manager.session = some s → s.scheduler.repaint = true

variable {rig rig' : Rig M D S} {token token' : Token} {s : Session M}

private theorem Runs.live {waiting : Bool} (h : rig.Runs s waiting) :
    rig.manager.live? s.token = some s :=
  SessionManager.live?_eq_some_iff.mpr ⟨h.session, h.active, rfl⟩

section
variable [Machine M]

private def keyed (s : Session M) (pressed : Bool) : Option Key → Session M
  | none => s
  | some key => { s with machine := (Machine.setKey s.machine key pressed).1 }

private theorem keyEvent_running {m : SessionManager M} (running : m.session = some s) (c : Char)
    (pressed : Bool) : (m.keyEvent c pressed).1 =
      { m with
        keys := (m.keys.hostKey c pressed).2
        session := some (keyed s pressed (m.keys.hostKey c pressed).1) } := by
  simp only [SessionManager.keyEvent, running]
  cases (m.keys.hostKey c pressed).1 <;> simp only [keyed]

private theorem Mirror.key (h : Mirror token token' rig rig') (c : Char) (pressed : Bool) :
    Mirror token token' { rig with manager := (rig.manager.keyEvent c pressed).1 }
      { rig' with manager := (rig'.manager.keyEvent c pressed).1 } := by
  obtain ⟨s, pending', waiting, rfl, hs, hs'⟩ := h.sessions
  rw [keyEvent_running hs.session, keyEvent_running hs'.session, h.keys]
  refine ⟨rfl, keyed s pressed (rig.manager.keys.hostKey c pressed).1, pending', waiting, ?_, ?_, ?_⟩
  all_goals cases (rig.manager.keys.hostKey c pressed).1
  · rfl
  · rfl
  · exact ⟨rfl, hs.active, hs.due⟩
  · exact ⟨rfl, hs.active, hs.due⟩
  · exact ⟨rfl, hs'.active, hs'.due⟩
  · exact ⟨rfl, hs'.active, hs'.due⟩

private theorem Unpainted.key (h : rig.Unpainted) (running : rig.manager.session = some s) (c : Char)
    (pressed : Bool) :
    Unpainted { rig with manager := (rig.manager.keyEvent c pressed).1 } := by
  rw [keyEvent_running running]
  refine ⟨h.1, fun after hafter => ?_⟩
  obtain rfl := Option.some.inj hafter
  cases (rig.manager.keys.hostKey c pressed).1 <;> exact h.2 s running

end

variable [Machine M] [Display D] [Sound S]

def play (rig : Rig M D S) :
    Play → Except ArithmeticFault (List (Except ConsoleError TickStatus) × Rig M D S)
  | .key c pressed => .ok ([], { rig with manager := (rig.manager.keyEvent c pressed).1 })
  | .refresh dice => do
    let (due, queue) := rig.queue.fire
    let delivered ← rig.manager.onTicks queue rig.sinks dice due
    return (delivered.results, ⟨delivered.manager, delivered.refresh, delivered.sinks⟩)

def playAll (rig : Rig M D S) :
    List Play → Except ArithmeticFault (List (Except ConsoleError TickStatus) × Rig M D S)
  | [] => .ok ([], rig)
  | play :: rest => do
    let (results, rig) ← rig.play play
    let (others, rig) ← rig.playAll rest
    return (results ++ others, rig)

private theorem Runs.refresh_idle (h : rig.Runs s false) (dice : Dice) :
    rig.play (.refresh dice) = .ok ([], rig) := by
  obtain ⟨manager, ⟨requested, pending⟩, sinks⟩ := rig
  have idle : pending = [] := List.map_eq_nil_iff.mp h.due
  subst idle
  rfl

omit [Machine M] [Display D] [Sound S] in
private def refreshed (rig : Rig M D S) (s : Session M) (ticked : Scheduler.Ticked M D S) :
    List (Except ConsoleError TickStatus) × Rig M D S :=
  match ticked.result with
  | .error e => ([.error e], ⟨rig.manager.advanced s ticked none, rig.queue.fire.2, ticked.sinks⟩)
  | .ok outcome =>
    let (handle, queue) := rig.queue.fire.2.request s.token
    ([.ok (.ran outcome)], ⟨rig.manager.advanced s ticked (some handle), queue, ticked.sinks⟩)

private theorem Runs.refresh_due (h : rig.Runs s true) (dice : Dice) : rig.play (.refresh dice) =
    (s.scheduler.tick s.machine rig.sinks dice).map (rig.refreshed s) := by
  have hfire : rig.queue.fire = ([s.token], rig.queue.fire.2) := Prod.ext h.due rfl
  simp only [play]
  rw [hfire]
  simp only [SessionManager.onTicks, SessionManager.onTick, h.live]
  cases s.scheduler.tick s.machine rig.sinks dice with
  | error fault => rfl
  | ok ticked =>
    simp only [Except.map, refreshed]
    cases ticked.result <;> rfl

/-- What two rigs come to that play the same: the same fault, or the same results and the same calls on
their sinks. If a tick was to paint, then the first refresh has brought it. -/
inductive Together (token token' : Token) (rig rig' : Rig M D S) (plays : List Play) :
    Except ArithmeticFault (List (Except ConsoleError TickStatus) × Rig M D S) →
    Except ArithmeticFault (List (Except ConsoleError TickStatus) × Rig M D S) → Prop
  | fault (fault : ArithmeticFault) : Together token token' rig rig' plays (.error fault) (.error fault)
  | ok (results : List (Except ConsoleError TickStatus)) (after after' : Rig M D S)
      (calls : List ScreenCall) (tones : List Tone) (mirror : Mirror token token' after after')
      (sinks : after.sinks = rig.sinks.after calls tones)
      (sinks' : after'.sinks = rig'.sinks.after calls tones)
      (painted : rig.Unpainted →
        ScreenCall.Settled calls ∨ after.Unpainted ∧ ∀ dice, .refresh dice ∉ plays) :
      Together token token' rig rig' plays (.ok (results, after)) (.ok (results, after'))

private theorem Mirror.refresh (h : Mirror token token' rig rig')
    (alike : Display.AnswersAlike rig.sinks.display rig'.sinks.display) (dice : Dice) :
    Together token token' rig rig' [.refresh dice] (rig.play (.refresh dice))
      (rig'.play (.refresh dice)) := by
  obtain ⟨s, pending', waiting, rfl, hs, hs'⟩ := h.sessions
  cases waiting with
  | false =>
    rw [hs.refresh_idle, hs'.refresh_idle]
    refine .ok [] rig rig' [] [] h rfl rfl fun unpainted => ?_
    exact absurd hs.due unpainted.1
  | true =>
    rw [hs.refresh_due, hs'.refresh_due]
    rcases s.scheduler.tick_uniform (D := D) (S := S) s.machine dice with ⟨fault, hfault⟩ | hok
    · simp only [hfault]
      exact .fault fault
    · obtain ⟨journal, hticked⟩ := hok rig.sinks
      obtain ⟨journal', hticked'⟩ := hok rig'.sinks
      rw [← s.scheduler.answer_alike s.machine dice alike] at hticked'
      simp only [hticked, hticked', Except.map, refreshed]
      have painted : rig.Unpainted → ScreenCall.Settled (s.scheduler.screenCalls s.machine dice) :=
        fun unpainted => s.scheduler.settled_screenCalls s.machine dice (unpainted.2 s hs.session)
      cases s.scheduler.verdict s.machine dice
          (s.scheduler.answer s.machine dice rig.sinks.display) with
      | error e =>
        refine .ok _ _ _ _ _ ⟨h.keys, _, none, false, ?_, ⟨rfl, hs.active, rfl⟩,
          ⟨rfl, hs'.active, rfl⟩⟩ rfl rfl fun unpainted => .inl (painted unpainted)
        rfl
      | ok outcome =>
        refine .ok _ _ _ _ _ ⟨h.keys, _, _, true, ?_, ⟨rfl, hs.active, rfl⟩,
          ⟨rfl, hs'.active, rfl⟩⟩ rfl rfl fun unpainted => .inl (painted unpainted)
        rfl

private theorem Mirror.play (h : Mirror token token' rig rig')
    (alike : Display.AnswersAlike rig.sinks.display rig'.sinks.display) (p : Play) :
    Together token token' rig rig' [p] (rig.play p) (rig'.play p) := by
  cases p with
  | key c pressed =>
    refine .ok [] _ _ [] [] (h.key c pressed) rfl rfl fun unpainted => .inr ⟨?_, nofun⟩
    obtain ⟨s, _, _, _, hs, _⟩ := h.sessions
    exact unpainted.key hs.session c pressed
  | refresh dice => exact h.refresh alike dice

private theorem Mirror.playAll (h : Mirror token token' rig rig')
    (alike : Display.AnswersAlike rig.sinks.display rig'.sinks.display) (plays : List Play) :
    Together token token' rig rig' plays (rig.playAll plays) (rig'.playAll plays) := by
  -- both rigs move on from a play, so the induction is over the plays for all pairs that mirror
  induction plays generalizing rig rig' with
  | nil => exact .ok [] _ _ [] [] h rfl rfl fun unpainted => .inr ⟨unpainted, nofun⟩
  | cons p rest ih =>
    simp only [Rig.playAll]
    have hfirst := h.play alike p
    -- the pair of outcomes is an index of `Together`, which needs variables there
    generalize rig.play p = first, rig'.play p = first' at hfirst
    cases hfirst with
    | fault fault => exact .fault fault
    | ok results after after' calls tones mirror sinks sinks' painted =>
      have hrest := ih mirror (by rw [sinks, sinks']; exact alike.after calls)
      simp only [bind, Except.bind]
      generalize after.playAll rest = ended, after'.playAll rest = ended' at hrest
      cases hrest with
      | fault fault => exact .fault fault
      | ok others last last' later further mirror' hsinks hsinks' painted' =>
        refine .ok _ _ _ (calls ++ later) (tones ++ further) mirror' ?_ ?_ fun unpainted => ?_
        · rw [hsinks, sinks, Sinks.after_after]
        · rw [hsinks', sinks', Sinks.after_after]
        · rcases painted unpainted with settled | ⟨still, unrefreshed⟩
          · exact .inl (ScreenCall.settled_append (.inl settled))
          · refine (painted' still).imp (fun settled => ScreenCall.settled_append (.inr settled)) ?_
            rintro ⟨still, unrefreshed'⟩
            refine ⟨still, fun dice hmem => ?_⟩
            rcases List.mem_cons.mp hmem with rfl | hmem
            · exact unrefreshed dice (List.mem_singleton_self _)
            · exact unrefreshed' dice hmem

end Rig

namespace SessionManager
variable {M D S : Type}

/-- No tick waits in the queue but the one that the session has pending. -/
def Tidy (m : SessionManager M) (queue : RefreshQueue) : Prop :=
  queue.pending = [] ∨ ∃ s handle, m.session = some s ∧ s.pending = some handle ∧
    queue.pending = [(handle, s.token)]

private theorem Tidy.retire {m : SessionManager M} {refresh : InFlight RefreshQueue}
    (h : m.Tidy refresh.queue) : (m.retire refresh).1.queue.pending = [] := by
  obtain ⟨⟨requested, pending⟩, fired⟩ := refresh
  rcases h with h | ⟨s, handle, hs, hhandle, h⟩ <;> cases h
  · unfold SessionManager.retire
    cases m.session with
    | none => rfl
    | some old =>
      simp only [withdraw]
      cases old.pending <;> rfl
  · simp [SessionManager.retire, withdraw, hs, hhandle, RefreshHost.cancel, RefreshQueue.cancel]

section
variable [Machine M] [Display D] [Sound S]

private theorem Tidy.move {m m' : SessionManager M} {refresh refresh' : InFlight RefreshQueue}
    {e : Event} {told : Journal} (h : m.Tidy refresh.queue) (step : Step D S m refresh e told m' refresh')
    (unhosted : ∀ token result, e ≠ .ticked token result) : m'.Tidy refresh'.queue := by
  cases step with
  | beginLoad => exact h
  | completeLoad ticket arrived done hdone =>
    cases completeLoad_completion hdone with
    | superseded => exact h
    | missing => exact h
    | refused => exact h
    | activated rom machine loaded notices wanted came taken =>
      refine .inr ⟨_, _, rfl, rfl, ?_⟩
      simp only [RefreshHost.request, RefreshQueue.request, h.retire]
      rfl
  | onTick token sinks dice delivered hdelivered => exact absurd rfl (unhosted token delivered.result)
  | keyEvent c pressed after hafter =>
    cases keyEvent_keying hafter with
    | kept => exact h
    | forwarded key session changed running =>
      rcases h with h | ⟨s, handle, hs, hhandle, h⟩
      · exact .inl h
      · obtain rfl := Option.some.inj (running.symm.trans hs)
        exact .inr ⟨_, handle, rfl, hhandle, h⟩
  | teardown =>
    rw [teardown_refresh]
    exact .inl h.retire

omit [Machine M] in
private theorem Tidy.delivered {m : SessionManager M} {refresh : InFlight RefreshQueue}
    {events : List Event} {s : Session M} (h : m.Tidy refresh.queue)
    (one : OneTick m (s.token ::ₘ HonestHost.owed refresh) events)
    (live : m.live? s.token = some s) : refresh.queue.pending = [] := by
  obtain ⟨running, active, -⟩ := live?_eq_some_iff.mp live
  -- the tick in hand is the one that is owed, so none of the session is left with the host
  have hone := one.one s.token active
  rw [Multiset.count_cons_self] at hone
  have hnone : (HonestHost.owed refresh).count s.token = 0 := by omega
  rcases h with h | ⟨other, handle, hother, -, h⟩
  · exact h
  · obtain rfl := Option.some.inj (running.symm.trans hother)
    refine absurd ?_ (Multiset.count_eq_zero.mp hnone)
    refine Multiset.mem_coe.mpr (List.mem_append_left _ ?_)
    simp [TickQueue.fire, RefreshQueue.fire, h]

private theorem Tidy.run {factory : Nat → M} {settings : SchedulerSettings} {keys : KeyTable}
    {m : SessionManager M} {refresh : InFlight RefreshQueue} {events : List Event}
    (run : HostedRun D S (new factory settings keys) ⟨{}, []⟩ m refresh events) :
    m.Tidy refresh.queue := by
  induction run with
  | start => exact .inl rfl
  | move run step unhosted ih => exact ih.move step unhosted
  | drift run drifts ih =>
    obtain rfl := drifts
    exact .inl rfl
  | @deliver m refresh refresh' events token run delivers sinks dice delivered h ih =>
    have tidy : m.Tidy refresh'.queue := delivers.1 ▸ ih
    have one := OneTick.run rfl run
    rw [HonestHost.owed_delivers delivers] at one
    cases onTick_delivery h with
    | stale => exact tidy
    | failed s ticked e live =>
      obtain ⟨-, -, rfl⟩ := live?_eq_some_iff.mp live
      exact .inl (tidy.delivered one live)
    | ran s ticked outcome live =>
      obtain ⟨-, -, rfl⟩ := live?_eq_some_iff.mp live
      refine .inr ⟨_, _, rfl, rfl, ?_⟩
      simp only [RefreshHost.request, RefreshQueue.request, tidy.delivered one live]
      rfl

end

private theorem runs_begun (m : SessionManager M) (machine : M) (rom : Rom) {queue : RefreshQueue}
    (empty : queue.pending = []) (sinks : Sinks D S) :
    Rig.Runs ⟨m.begun machine rom (queue.request m.tokens.activate.1).1,
        (queue.request m.tokens.activate.1).2, sinks⟩
      { token := m.tokens.activate.1, machine, scheduler := .ofSettings m.settings, rom := rom.name,
        pending := some (queue.request m.tokens.activate.1).1 } true := by
  refine ⟨rfl, rfl, ?_⟩
  simp [RefreshQueue.request, RefreshQueue.fire, empty]

private theorem begun_of_result [Machine M] {m : SessionManager M} {ticket : LoadTicket} {rom : Rom}
    {refresh : InFlight RefreshQueue} {token : Token}
    (h : (m.completeLoad ticket (.ok rom) refresh).result = .ok (some token)) :
    m.awaited = some ticket ∧ token = m.tokens.activate.1 ∧
      ∃ taken, Machine.load (m.factory (m.built + 1)) rom.bytes = .ok taken := by
  generalize hdone : m.completeLoad ticket (.ok rom) refresh = done at h
  cases completeLoad_completion hdone with
  | superseded => cases h
  | missing e wanted failed => cases failed
  | refused => cases h
  | activated rom' machine loaded notices wanted came taken =>
    cases came
    cases h
    exact ⟨wanted, rfl, _, taken⟩

private theorem load_interpreter (machine machine' : Interpreter) (program : List UInt8) :
    Machine.load machine program = Machine.load machine' program := rfl

variable [Display D] [Sound S]

/-- Nothing of what came before a session shows in it. Take any run of a manager of interpreters in which
ticks come only from its queue, and an image that then begins a session. Whatever is played from there on,
everything comes out as it does where the image is the first that a new manager is given: the results of
the ticks, the calls on the screen and the speaker, the keys, the count of ticks, the machine. What the
screen showed before is painted over by the first refresh, and a tick of an older session that was fired
before and comes late is still stale. -/
theorem plays_as_fresh {factory : Nat → Interpreter} {settings : SchedulerSettings} {keys : KeyTable}
    {m : SessionManager Interpreter} {refresh : InFlight RefreshQueue} {events : List Event}
    (run : HostedRun D S (new factory settings keys) ⟨{}, []⟩ m refresh events) {ticket : LoadTicket}
    {rom : Rom} {token : Token}
    (begins : (m.completeLoad ticket (.ok rom) refresh).result = .ok (some token))
    (factory' : Nat → Interpreter) (keys' : KeyTable) {sinks sinks' : Sinks D S}
    (alike : Display.AnswersAlike sinks.display sinks'.display) (plays : List Play) :
    let done := m.completeLoad ticket (.ok rom) refresh
    let fresh := (new factory' settings keys').beginLoad
    let first := fresh.2.completeLoad fresh.1 (.ok rom) ({} : RefreshQueue)
    let rig : Rig Interpreter D S := ⟨done.manager, done.refresh.queue, sinks⟩
    let rig' : Rig Interpreter D S := ⟨first.manager, first.refresh, sinks'⟩
    first.result = .ok (some ⟨1⟩) ∧
    ((∃ fault, rig.playAll plays = .error fault ∧ rig'.playAll plays = .error fault) ∨
      ∃ results after after' calls tones,
        rig.playAll plays = .ok (results, after) ∧ rig'.playAll plays = .ok (results, after') ∧
        after'.manager.keys = after.manager.keys ∧
        after'.manager.ticks = after.manager.ticks ∧
        (∃ s s', after.manager.session = some s ∧ after'.manager.session = some s' ∧
          s'.machine = s.machine ∧ s'.scheduler = s.scheduler ∧ s'.rom = s.rom) ∧
        after.sinks = sinks.after calls tones ∧ after'.sinks = sinks'.after calls tones ∧
        ((∃ dice, .refresh dice ∈ plays) → ScreenCall.Settled calls) ∧
        ∀ late ∈ refresh.fired, after.manager.live? late = none) := by
  intro done fresh first rig rig'
  have tidy := Tidy.run run
  have one := OneTick.run rfl run
  obtain ⟨journal, toRun⟩ := run.toRun
  obtain rfl : m.settings = settings := toRun.fixed.2
  obtain ⟨wanted, rfl, taken, loads⟩ := begun_of_result begins
  obtain ⟨hmanager, hrefresh, -⟩ := completeLoad_begun refresh wanted loads
  have wanted' : fresh.2.awaited = some fresh.1 := rfl
  obtain ⟨hmanager', hrefresh', hresult'⟩ := completeLoad_begun ({} : RefreshQueue) wanted'
    ((load_interpreter _ _ _).trans loads)
  have hrig := runs_begun m taken.1 rom tidy.retire sinks
  have hrig' := runs_begun fresh.2 taken.1 rom (rfl : ({} : RefreshQueue).pending = []) sinks'
  have mirror : Rig.Mirror m.tokens.activate.1 ⟨1⟩ rig rig' := by
    change Rig.Mirror _ _ ⟨done.manager, done.refresh.queue, _⟩ ⟨first.manager, first.refresh, _⟩
    rw [hmanager, hrefresh]
    simp only [first]
    rw [hmanager', hrefresh']
    exact ⟨rfl, _, _, true, rfl, hrig, hrig'⟩
  have unpainted : rig.Unpainted := by
    change Rig.Unpainted ⟨done.manager, done.refresh.queue, _⟩
    rw [hmanager, hrefresh]
    refine ⟨hrig.due ▸ nofun, fun s hs => ?_⟩
    obtain rfl := Option.some.inj (hrig.session.symm.trans hs)
    rfl
  refine ⟨hresult', ?_⟩
  have together := mirror.playAll alike plays
  generalize rig.playAll plays = last, rig'.playAll plays = last' at together
  cases together with
  | fault fault => exact .inl ⟨fault, rfl, rfl⟩
  | ok results after after' calls tones mirror sinks sinks' painted =>
    obtain ⟨s, pending', waiting, htoken, hs, hs'⟩ := mirror.sessions
    refine .inr ⟨results, after, after', calls, tones, rfl, rfl, mirror.keys, ?_,
      ⟨s, _, hs.session, hs'.session, rfl, rfl, rfl⟩, sinks, sinks', ?_, ?_⟩
    · simp only [ticks, hs.session, hs'.session, Option.map_some]
    · rintro ⟨dice, hdice⟩
      exact (painted unpainted).resolve_right fun h => h.2 dice hdice
    · intro late hlate
      rw [Option.eq_none_iff_forall_not_mem]
      intro other hother
      obtain ⟨-, active, -⟩ := live?_eq_some_iff.mp hother
      have hnew : late = m.tokens.activate.1 :=
        Option.some.inj (active.symm.trans (hs.active.trans (congrArg some htoken)))
      have howed := (one.unissued late (hnew ▸ Nat.lt_succ_self _)).1
      exact Multiset.count_eq_zero.mp howed (Multiset.mem_coe.mpr (List.mem_append_right _ hlate))

/-- A second image while a key is held and after a tick of the first: the results of what is played then
are those of a new manager. -/
theorem plays_as_fresh_of_swap :
    let started : SessionManager Interpreter := new (fun _ => .initial) {}
    let pong : Rom := ⟨"pong", [0xA2, 0x1E], none⟩
    let sinks : Sinks RecordingDisplay Mute := ⟨{}, .mute⟩
    let host : InFlight RefreshQueue := ⟨{}, []⟩
    ∃ m refresh events, HostedRun RecordingDisplay Mute started host m refresh events ∧
      m.keys.isDown 5 = true ∧ (∃ result, .ticked ⟨1⟩ result ∈ events) ∧
      (m.completeLoad ⟨2⟩ (.ok pong) refresh).result = .ok (some ⟨2⟩) ∧
      ∀ dice,
        let done := m.completeLoad ⟨2⟩ (.ok pong) refresh
        let first := started.beginLoad.2.completeLoad ⟨1⟩ (.ok pong) ({} : RefreshQueue)
        let plays : List Play := [.refresh dice, .key 'w' true, .refresh dice]
        let rig : Rig Interpreter RecordingDisplay Mute := ⟨done.manager, done.refresh.queue, sinks⟩
        let rig' : Rig Interpreter RecordingDisplay Mute := ⟨first.manager, first.refresh, sinks⟩
        (rig.playAll plays).map Prod.fst = (rig'.playAll plays).map Prod.fst := by
  intro started pong sinks host
  let maze : Rom := ⟨"maze", [0x12, 0x00], none⟩
  let loaded := started.beginLoad.2.completeLoad ⟨1⟩ (.ok maze) host
  let held := (loaded.manager.keyEvent 'w' true).1
  have loading : HostedRun RecordingDisplay Mute started host loaded.manager loaded.refresh _ :=
    (HostedRun.start.move (.beginLoad : Step RecordingDisplay Mute _ _ _ _ _ _) nofun).move
      (.completeLoad ⟨1⟩ (.ok maze) loaded rfl) nofun
  have holding : HostedRun RecordingDisplay Mute started host held loaded.refresh _ :=
    loading.move (.keyEvent 'w' true _ rfl) nofun
  have fired := holding.drift rfl
  let after : InFlight RefreshQueue := ⟨loaded.refresh.fire.queue, []⟩
  have delivers : HonestHost.Delivers loaded.refresh.fire ⟨1⟩ after := ⟨rfl, .refl _⟩
  obtain ⟨journal, toRun⟩ := fired.toRun
  obtain ⟨delivered, hdelivered⟩ := (toRun.configured (configured_new _ {} _)).onTick_isOk
    (by rw [toRun.fixed.2]; decide) ⟨1⟩ after sinks (fun _ => 0)
  have run := (fired.deliver delivers sinks _ delivered hdelivered).move
    (.beginLoad : Step RecordingDisplay Mute _ _ _ _ _ _) nofun
  obtain ⟨hkeys, htokens, hselections⟩ : delivered.manager.keys = held.keys ∧
      delivered.manager.tokens = held.tokens ∧ delivered.manager.selections = 1 := by
    cases onTick_delivery hdelivered <;> exact ⟨rfl, rfl, rfl⟩
  have wanted : delivered.manager.beginLoad.2.awaited = some ⟨2⟩ :=
    congrArg (fun selections => some (LoadTicket.mk (selections + 1))) hselections
  have loads : Machine.load (Interpreter.initial) pong.bytes = .ok (_, []) := rfl
  have begins := (completeLoad_begun delivered.refresh wanted loads).2.2
  have hlive : delivered.manager.beginLoad.2.tokens.activate.1 = ⟨2⟩ :=
    congrArg (fun tokens => (TokenSource.activate tokens).1) htokens
  rw [hlive] at begins
  refine ⟨_, _, _, run, ?_, ⟨delivered.result, ?_⟩, begins, fun dice => ?_⟩
  · exact (congrArg (fun keys => KeyTable.isDown keys 5) hkeys).trans rfl
  · simp
  · have alike : Display.AnswersAlike sinks.display sinks.display := fun _ => rfl
    obtain ⟨-, hsame⟩ := plays_as_fresh run begins (fun _ => .initial) .released alike
      [.refresh dice, .key 'w' true, .refresh dice]
    rcases hsame with ⟨fault, h, h'⟩ | ⟨results, later, later', calls, tones, h, h', -⟩ <;>
      exact (congrArg (Except.map Prod.fst) h).trans (congrArg (Except.map Prod.fst) h').symm

end SessionManager

end Chip8Console
