import Chip8Console.Machine.Scripted
import Chip8Console.Proofs.SessionMoves
import Chip8Console.Screen.Recording
import Mathlib.Data.Multiset.Count

/-!
The one tick that a session waits for. A host may deliver ticks late, in any order and after they were
withdrawn, and still a session that no tick failed has exactly one on its way, and no tick of a session
that is over has any effect.
-/
namespace Chip8Console

/-- A host that delivers each requested tick at most once and loses none. What it is able to withdraw
is left to it. -/
class HonestHost (R : Type) extends RefreshHost R where
  /-- the sessions of the ticks that were requested and neither delivered nor withdrawn -/
  owed : R → Multiset Token
  /-- The host may give up a tick of this session for delivery. -/
  Delivers : R → Token → R → Prop
  /-- The host may move by itself. -/
  Drifts : R → R → Prop
  owed_request (refresh : R) (token : Token) :
    owed (request refresh token).2 = token ::ₘ owed refresh
  owed_cancel (refresh : R) (handle : TickHandle) : owed (cancel refresh handle) ≤ owed refresh
  owed_delivers {refresh refresh' : R} {token : Token} (h : Delivers refresh token refresh') :
    owed refresh = token ::ₘ owed refresh'
  owed_drifts {refresh refresh' : R} (h : Drifts refresh refresh') : owed refresh' = owed refresh

/-- A queue that gives up all of its ticks at once. -/
class TickQueue (Q : Type) extends RefreshHost Q where
  fire : Q → List Token × Q
  fire_request (q : Q) (token : Token) : (fire (request q token).2).1 = (fire q).1 ++ [token]
  fire_cancel (q : Q) (handle : TickHandle) : (fire (cancel q handle)).1.Sublist (fire q).1
  fire_fire (q : Q) : (fire (fire q).2).1 = []

instance : TickQueue RefreshQueue where
  fire := RefreshQueue.fire
  fire_request _ _ := List.map_append
  fire_cancel _ _ := List.filter_sublist.map Prod.snd
  fire_fire _ := rfl

instance : TickQueue UncancellableQueue where
  fire := UncancellableQueue.fire
  fire_request _ _ := List.map_append
  fire_cancel _ _ := List.Sublist.refl _
  fire_fire _ := rfl

/-- A queue with the ticks that it has given up and that are not delivered yet. These are beyond
withdrawal. -/
structure InFlight (Q : Type) where
  queue : Q
  fired : List Token := []

namespace InFlight
variable {Q : Type} [TickQueue Q]

def fire (r : InFlight Q) : InFlight Q :=
  ⟨(TickQueue.fire r.queue).2, r.fired ++ (TickQueue.fire r.queue).1⟩

instance : HonestHost (InFlight Q) where
  request r token :=
    let (handle, queue) := RefreshHost.request r.queue token
    (handle, { r with queue })
  cancel r handle := { r with queue := RefreshHost.cancel r.queue handle }
  owed r := ((TickQueue.fire r.queue).1 ++ r.fired : List Token)
  Delivers r token r' := r'.queue = r.queue ∧ r.fired.Perm (token :: r'.fired)
  Drifts r r' := r' = r.fire
  owed_request r token := by
    rw [TickQueue.fire_request, List.append_assoc]
    exact Multiset.coe_eq_coe.mpr List.perm_middle
  owed_cancel r handle :=
    Multiset.coe_le.mpr ((TickQueue.fire_cancel r.queue handle).append_right r.fired).subperm
  owed_delivers := by
    rintro r ⟨queue, fired⟩ token ⟨rfl, h⟩
    exact Multiset.coe_eq_coe.mpr ((h.append_left _).trans List.perm_middle)
  owed_drifts := by
    rintro r _ rfl
    rw [fire, TickQueue.fire_fire, List.nil_append]
    exact Multiset.coe_eq_coe.mpr List.perm_append_comm

end InFlight

namespace SessionManager
variable {M R D S : Type} [Machine M] [HonestHost R] [Display D] [Sound S]

variable (D S) in
/-- A run of moves in which ticks come only from the host. -/
inductive HostedRun (m₀ : SessionManager M) (refresh₀ : R) :
    SessionManager M → R → List Event → Prop
  | start : HostedRun m₀ refresh₀ m₀ refresh₀ []
  | move {m m' : SessionManager M} {refresh refresh' : R} {events : List Event} {e : Event}
      {told : Journal} (run : HostedRun m₀ refresh₀ m refresh events)
      (step : Step D S m refresh e told m' refresh')
      (unhosted : ∀ token result, e ≠ .ticked token result) :
      HostedRun m₀ refresh₀ m' refresh' (events ++ [e])
  | drift {m : SessionManager M} {refresh refresh' : R} {events : List Event}
      (run : HostedRun m₀ refresh₀ m refresh events) (drifts : HonestHost.Drifts refresh refresh') :
      HostedRun m₀ refresh₀ m refresh' events
  | deliver {m : SessionManager M} {refresh refresh' : R} {events : List Event} {token : Token}
      (run : HostedRun m₀ refresh₀ m refresh events)
      (delivers : HonestHost.Delivers refresh token refresh') (sinks : Sinks D S) (dice : Dice)
      (delivered : Delivered M R D S) (h : m.onTick token refresh' sinks dice = .ok delivered) :
      HostedRun m₀ refresh₀ delivered.manager delivered.refresh
        (events ++ [.ticked token delivered.result])

/-- A hosted run is a run of moves. -/
theorem HostedRun.toRun {m₀ m : SessionManager M} {refresh₀ refresh : R} {events : List Event}
    (run : HostedRun D S m₀ refresh₀ m refresh events) :
    ∃ journal, Run R D S m₀ m events journal := by
  induction run with
  | start => exact ⟨[], .start⟩
  | move run step unhosted ih =>
    obtain ⟨journal, h⟩ := ih
    exact ⟨_, h.step step⟩
  | drift run drifts ih => exact ih
  | deliver run delivers sinks dice delivered h ih =>
    obtain ⟨journal, h'⟩ := ih
    exact ⟨_, h'.step (.onTick _ sinks dice delivered h)⟩

/-- The tokens of the sessions that were begun, oldest first. -/
def activated (events : List Event) : List Token := (events.filterMap Event.activation).map Prod.fst

private theorem activated_concat {events : List Event} {e : Event} (quiet : e.activation = none) :
    activated (events ++ [e]) = activated events := by
  simp [activated, quiet]

def Event.failed (token : Token) : Event → Bool
  | .ticked other (.error _) => other == token
  | _ => false

private theorem Event.failed_iff {token : Token} {e : Event} :
    e.failed token = true ↔ ∃ cause, e = .ticked token (.error cause) := by
  constructor
  · intro h
    cases e with
    | ticked other result =>
      cases result with
      | ok status => cases h
      | error cause =>
        rw [beq_iff_eq.mp h]
        exact ⟨cause, rfl⟩
    | _ => cases h
  · rintro ⟨cause, rfl⟩
    exact beq_self_eq_true token

/-- What holds throughout a hosted run. The session that runs either has one tick on its way or has
had its one failing tick; tokens that are not issued yet have neither. -/
structure OneTick (m : SessionManager M) (owed : Multiset Token) (events : List Event) : Prop where
  active : m.tokens.active = m.session.map Session.token
  latest : ∀ token, m.tokens.active = some token → (activated events).getLast? = some token
  ascending : (activated events).Pairwise fun earlier later => earlier.number < later.number
  issued : ∀ token ∈ activated events, token.number ≤ m.tokens.issued
  unissued : ∀ token : Token, m.tokens.issued < token.number →
    owed.count token = 0 ∧ events.countP (Event.failed token) = 0
  one : ∀ token, m.tokens.active = some token →
    owed.count token + events.countP (Event.failed token) = 1

omit [Machine M] in
private theorem OneTick.start (factory : Nat → M) (settings : SchedulerSettings) (keys : KeyTable) :
    OneTick (new factory settings keys) 0 [] := by
  constructor <;> simp [new, activated]

omit [Machine M] in
private theorem OneTick.quiet {m m' : SessionManager M} {owed owed' : Multiset Token}
    {events : List Event} (h : OneTick m owed events) (e : Event) (tokens : m'.tokens = m.tokens)
    (session : m'.session.map Session.token = m.session.map Session.token)
    (activation : e.activation = none) (failed : ∀ token, e.failed token = false)
    (fewer : owed' ≤ owed)
    (same : ∀ token, m.tokens.active = some token → owed'.count token = owed.count token) :
    OneTick m' owed' (events ++ [e]) := by
  have hactivated : activated (events ++ [e]) = activated events := activated_concat activation
  have hcount (token : Token) : (events ++ [e]).countP (Event.failed token) =
      events.countP (Event.failed token) := by
    rw [List.countP_append, List.countP_singleton, failed]
    rfl
  constructor
  · rw [tokens, session]
    exact h.active
  · rw [tokens, hactivated]
    exact h.latest
  · rw [hactivated]
    exact h.ascending
  · rw [tokens, hactivated]
    exact h.issued
  · intro token ht
    obtain ⟨howed, hfailed⟩ := h.unissued token (tokens ▸ ht)
    exact ⟨Nat.eq_zero_of_le_zero (howed ▸ Multiset.count_le_of_le token fewer),
      (hcount token).trans hfailed⟩
  · intro token ht
    rw [tokens] at ht
    rw [same token ht, hcount]
    exact h.one token ht

omit [Machine M] in
private theorem owed_retire (m : SessionManager M) (refresh : R) :
    HonestHost.owed (m.retire refresh).1 ≤ HonestHost.owed refresh := by
  unfold retire
  cases m.session with
  | none => exact le_refl _
  | some old =>
    simp only [withdraw]
    cases old.pending with
    | none => exact le_refl _
    | some handle => exact HonestHost.owed_cancel refresh handle

omit [Machine M] [HonestHost R] in
private theorem OneTick.begin {m : SessionManager M} {owed owed' : Multiset Token}
    {events : List Event} (h : OneTick m owed events) (ticket : LoadTicket) (rom : Rom) (machine : M)
    (handle : TickHandle) (fewer : owed' ≤ owed) :
    OneTick (m.begun machine rom handle) (m.tokens.activate.1 ::ₘ owed')
      (events ++ [.completed ticket (.ok rom) (.ok (some m.tokens.activate.1))]) := by
  have hactivated :
      activated (events ++ [.completed ticket (.ok rom) (.ok (some m.tokens.activate.1))]) =
        activated events ++ [m.tokens.activate.1] := by
    simp [activated, Event.activation]
  have hcount (token : Token) :
      (events ++ [Event.completed ticket (.ok rom) (.ok (some m.tokens.activate.1))]).countP
        (Event.failed token) = events.countP (Event.failed token) := by
    simp [Event.failed]
  have hfewer (token : Token) := Multiset.count_le_of_le token fewer
  have hnew : m.tokens.issued < m.tokens.activate.1.number := Nat.lt_succ_self _
  constructor
  · rfl
  · intro token ht
    obtain rfl : m.tokens.activate.1 = token := Option.some.inj ht
    rw [hactivated, List.getLast?_concat]
  · rw [hactivated, List.pairwise_append]
    refine ⟨h.ascending, List.pairwise_singleton _ _, ?_⟩
    intro token ht other hother
    obtain rfl := List.mem_singleton.mp hother
    exact Nat.lt_of_le_of_lt (h.issued token ht) hnew
  · intro token ht
    rw [hactivated] at ht
    rcases List.mem_append.mp ht with ht | ht
    · exact Nat.le_succ_of_le (h.issued token ht)
    · obtain rfl := List.mem_singleton.mp ht
      exact Nat.le_refl _
  · intro token ht
    have ht : m.tokens.activate.1.number < token.number := ht
    obtain ⟨howed, hfailed⟩ := h.unissued token (Nat.lt_trans hnew ht)
    have hne : token ≠ m.tokens.activate.1 := fun hh => Nat.lt_irrefl _ (hh ▸ ht)
    rw [Multiset.count_cons_of_ne hne, hcount]
    exact ⟨Nat.eq_zero_of_le_zero (howed ▸ hfewer token), hfailed⟩
  · intro token ht
    obtain rfl : m.tokens.activate.1 = token := Option.some.inj ht
    obtain ⟨howed, hfailed⟩ := h.unissued m.tokens.activate.1 hnew
    have : owed'.count m.tokens.activate.1 = 0 := Nat.eq_zero_of_le_zero (howed ▸ hfewer _)
    rw [Multiset.count_cons_self, hcount, this, hfailed]

omit [Machine M] in
private theorem OneTick.teardown {m : SessionManager M} {refresh : R} {events : List Event}
    (h : OneTick m (HonestHost.owed refresh) events) :
    OneTick (m.teardown refresh).1 (HonestHost.owed (m.teardown refresh).2.1)
      (events ++ [.tornDown]) := by
  have hactivated : activated (events ++ [.tornDown]) = activated events := activated_concat rfl
  rw [teardown_refresh, teardown_manager]
  constructor
  · rfl
  · exact fun token ht => nomatch ht
  · rw [hactivated]
    exact h.ascending
  · rw [hactivated]
    exact h.issued
  · intro token ht
    obtain ⟨howed, hfailed⟩ := h.unissued token ht
    have := Multiset.count_le_of_le token (m.owed_retire refresh)
    refine ⟨Nat.eq_zero_of_le_zero (howed ▸ this), ?_⟩
    rw [List.countP_append, hfailed]
    rfl
  · exact fun token ht => nomatch ht

private theorem OneTick.move {m m' : SessionManager M} {refresh refresh' : R} {events : List Event}
    {e : Event} {told : Journal} (h : OneTick m (HonestHost.owed refresh) events)
    (step : Step D S m refresh e told m' refresh')
    (unhosted : ∀ token result, e ≠ .ticked token result) :
    OneTick m' (HonestHost.owed refresh') (events ++ [e]) := by
  cases step with
  | beginLoad =>
    exact h.quiet _ rfl rfl rfl (fun _ => rfl) (le_refl _) (fun _ _ => rfl)
  | completeLoad ticket arrived done hdone =>
    cases completeLoad_completion hdone with
    | superseded =>
      refine h.quiet _ rfl rfl ?_ (fun _ => rfl) (le_refl _) (fun _ _ => rfl)
      cases arrived <;> rfl
    | missing e wanted failed =>
      subst failed
      exact h.quiet _ rfl rfl rfl (fun _ => rfl) (le_refl _) (fun _ _ => rfl)
    | refused rom e wanted came =>
      subst came
      exact h.quiet _ rfl rfl rfl (fun _ => rfl) (le_refl _) (fun _ _ => rfl)
    | activated rom machine loaded notices wanted came taken =>
      subst came
      rw [HonestHost.owed_request]
      exact h.begin ticket rom machine _ (m.owed_retire refresh)
  | onTick token sinks dice delivered hdelivered => exact absurd rfl (unhosted token delivered.result)
  | keyEvent c pressed after hafter =>
    refine h.quiet _ ?_ ?_ rfl (fun _ => rfl) (le_refl _) (fun _ _ => rfl)
    · cases keyEvent_keying hafter <;> rfl
    · cases keyEvent_keying hafter with
      | kept => rfl
      | forwarded key session changed running => rw [running]; rfl
  | teardown => exact h.teardown

private theorem OneTick.deliver {m : SessionManager M} {refresh : R} {events : List Event}
    {owed : Multiset Token} {token : Token} {sinks : Sinks D S} {dice : Dice}
    {delivered : Delivered M R D S} (h : OneTick m owed events)
    (taken : owed = token ::ₘ HonestHost.owed refresh)
    (hdelivered : m.onTick token refresh sinks dice = .ok delivered) :
    OneTick delivered.manager (HonestHost.owed delivered.refresh)
      (events ++ [.ticked token delivered.result]) := by
  -- the delivery of a tick: a stale one takes nothing from the running session, one that runs puts another
  -- on its way, and one that fails counts as the failure of the session
  cases onTick_delivery hdelivered with
  | stale dead =>
    refine h.quiet _ rfl rfl rfl (fun _ => rfl) (taken ▸ Multiset.le_cons_self _ _) ?_
    intro other ht
    have hne : other ≠ token := by
      rintro rfl
      obtain ⟨session, hsession, hother⟩ := Option.map_eq_some_iff.mp (h.active.symm.trans ht)
      exact absurd (live?_eq_some_iff.mpr ⟨hsession, ht, hother⟩) (dead ▸ nofun)
    rw [taken, Multiset.count_cons_of_ne hne]
  | ran session ticked outcome live hticked result =>
    obtain ⟨running, -, -⟩ := live?_eq_some_iff.mp live
    refine h.quiet _ rfl ?_ rfl (fun _ => rfl) ?_ ?_
    · rw [running]
      rfl
    · rw [HonestHost.owed_request, taken]
    · rw [HonestHost.owed_request, taken]
      exact fun _ _ => rfl
  | failed session ticked e live hticked result =>
    obtain ⟨running, active, rfl⟩ := live?_eq_some_iff.mp live
    have hactivated : activated (events ++ [.ticked session.token (.error e)]) = activated events :=
      activated_concat rfl
    have hcount (other : Token) :
        (events ++ [Event.ticked session.token (.error e)]).countP (Event.failed other) =
          events.countP (Event.failed other) + if session.token = other then 1 else 0 := by
      simp [List.countP_append, List.countP_singleton, Event.failed]
    constructor
    · exact active
    · rw [hactivated]
      exact h.latest
    · rw [hactivated]
      exact h.ascending
    · rw [hactivated]
      exact h.issued
    · intro other ht
      obtain ⟨howed, hfailed⟩ := h.unissued other ht
      have hne : session.token ≠ other := by
        rintro rfl
        have := h.issued session.token (List.mem_of_getLast? (h.latest _ active))
        exact absurd ht (Nat.not_lt.mpr this)
      rw [taken, Multiset.count_cons_of_ne hne.symm] at howed
      exact ⟨howed, by rw [hcount, hfailed, if_neg hne]⟩
    · intro other ht
      obtain rfl := Option.some.inj (active.symm.trans ht)
      have := h.one _ active
      rw [taken, Multiset.count_cons_self, Nat.add_right_comm] at this
      rw [hcount, if_pos rfl]
      exact this

/-- Every hosted run of a new manager on an idle host keeps to one tick. -/
theorem OneTick.run {factory : Nat → M} {settings : SchedulerSettings} {keys : KeyTable}
    {refresh₀ refresh : R} {m : SessionManager M} {events : List Event}
    (idle : HonestHost.owed refresh₀ = 0)
    (run : HostedRun D S (new factory settings keys) refresh₀ m refresh events) :
    OneTick m (HonestHost.owed refresh) events := by
  induction run with
  | start =>
    rw [idle]
    exact .start factory settings keys
  | move run step unhosted ih => exact ih.move step unhosted
  | drift run drifts ih =>
    rw [HonestHost.owed_drifts drifts]
    exact ih
  | deliver run delivers sinks dice delivered h ih =>
    exact ih.deliver (HonestHost.owed_delivers delivers) h

/-- The token was issued and is not the live one. -/
def Spent (m : SessionManager M) (token : Token) : Prop :=
  token.number ≤ m.tokens.issued ∧ m.tokens.active ≠ some token

private theorem Spent.step {m m' : SessionManager M} {token : Token} {refresh refresh' : R}
    {e : Event} {told : Journal} (h : m.Spent token) (step : Step D S m refresh e told m' refresh') :
    m'.Spent token := by
  obtain ⟨hissued, hdead⟩ := h
  unfold Spent
  rcases step.tokens with htokens | htokens | htokens <;> rw [htokens]
  · exact ⟨hissued, hdead⟩
  · refine ⟨Nat.le_succ_of_le hissued, fun hh => ?_⟩
    have : m.tokens.issued + 1 = token.number := congrArg Token.number (Option.some.inj hh)
    omega
  · exact ⟨hissued, nofun⟩

private theorem Spent.run {m m' : SessionManager M} {token : Token} {events : List Event}
    {journal : Journal} (h : m.Spent token) (run : Run R D S m m' events journal) :
    m'.Spent token := by
  induction run with
  | start => exact h
  | step run step ih => exact ih.step step

/-- Against a host that delivers each requested tick at most once and loses none, in every run: the live
token is that of the running session. Every session has a token of its own, and a token that is no longer
live is never live again. While a session runs, exactly one tick of it is on its way if none of its ticks
failed, and none if one did. A tick whose token is not live is stale: it changes nothing and requests
nothing. While the blocks of the picture have words for corners, no tick ends in a fault. -/
theorem one_live_tick {factory : Nat → M} {settings : SchedulerSettings} {keys : KeyTable}
    {refresh₀ refresh : R} {m : SessionManager M} {events : List Event}
    (idle : HonestHost.owed refresh₀ = 0)
    (run : HostedRun D S (new factory settings keys) refresh₀ m refresh events) :
    (∀ token, m.tokens.active = some token ↔ ∃ s, m.session = some s ∧ s.token = token) ∧
    ((activated events).Nodup ∧
      (∀ token, m.tokens.active = some token → token ∈ activated events) ∧
      ∀ m₁ refresh₁ events₁, HostedRun D S m refresh m₁ refresh₁ events₁ →
        ∀ token ∈ activated events, m₁.tokens.active ≠ some token →
          ∀ m₂ refresh₂ events₂, HostedRun D S m₁ refresh₁ m₂ refresh₂ events₂ →
            m₂.tokens.active ≠ some token) ∧
    (∀ s, m.session = some s →
      ((∀ e, .ticked s.token (.error e) ∉ events) → (HonestHost.owed refresh).count s.token = 1) ∧
      ((∃ e, .ticked s.token (.error e) ∈ events) → (HonestHost.owed refresh).count s.token = 0)) ∧
    (∀ token, m.tokens.active ≠ some token →
      ∀ (refresh : R) (sinks : Sinks D S) (dice : Dice),
        m.onTick token refresh sinks dice =
          .ok ⟨m, refresh, sinks, .ok .stale, Journal.ofNotices [.staleTick token.number]⟩) ∧
    ((Frame.width - 1) * max settings.scale 1 < Word.limit →
      ∀ (token : Token) (refresh : R) (sinks : Sinks D S) (dice : Dice),
        ∃ delivered, m.onTick token refresh sinks dice = .ok delivered) := by
  have h := OneTick.run idle run
  obtain ⟨journal, run⟩ := run.toRun
  refine ⟨?_, ⟨?_, ?_, ?_⟩, ?_, ?_, ?_⟩
  · intro token
    rw [h.active, Option.map_eq_some_iff]
  · exact h.ascending.imp fun lt hh => Nat.ne_of_lt lt (congrArg Token.number hh)
  · exact fun token ht => List.mem_of_getLast? (h.latest token ht)
  · intro m₁ refresh₁ events₁ run₁ token ht hdead m₂ refresh₂ events₂ run₂
    obtain ⟨journal₁, run₁⟩ := run₁.toRun
    obtain ⟨journal₂, run₂⟩ := run₂.toRun
    have hissued := Nat.le_trans (h.issued token ht) run₁.issued_le
    have hspent : m₁.Spent token := ⟨hissued, hdead⟩
    exact (hspent.run run₂).2
  · intro s hs
    have hone := h.one s.token (by rw [h.active, hs]; rfl)
    constructor
    · intro hnone
      have hfailed : events.countP (Event.failed s.token) = 0 := by
        rw [List.countP_eq_zero]
        intro e he
        rw [Event.failed_iff]
        rintro ⟨cause, rfl⟩
        exact hnone cause he
      omega
    · rintro ⟨cause, he⟩
      have hfailed : 0 < events.countP (Event.failed s.token) :=
        List.countP_pos_iff.mpr ⟨_, he, Event.failed_iff.mpr ⟨cause, rfl⟩⟩
      omega
  · intro token hdead refresh sinks dice
    cases hlive : m.live? token with
    | none => simp only [onTick, hlive]
    | some session => exact absurd (live?_eq_some_iff.mp hlive).2.1 hdead
  · intro fits token refresh sinks dice
    have configured : m.Configured := run.configured (configured_new factory settings keys)
    exact configured.onTick_isOk (by rw [run.fixed.2]; exact fits) token refresh sinks dice

/-- A swap on a host that cannot withdraw: the tick of the first session comes late and is stale, that of
the second is still on its way. -/
theorem one_live_tick_of_late_tick :
    let factory : Nat → ScriptedMachine := fun k => { id := k }
    let host : InFlight UncancellableQueue := { queue := {} }
    HonestHost.owed host = 0 ∧
    ∃ m refresh events, HostedRun RecordingDisplay Mute (new factory {}) host m refresh events ∧
      activated events = [⟨1⟩, ⟨2⟩] ∧ .ticked ⟨1⟩ (.ok .stale) ∈ events ∧
      (∃ s, m.session = some s ∧ s.token = ⟨2⟩) ∧ (HonestHost.owed refresh).count ⟨2⟩ = 1 ∧
      ∀ (refresh : InFlight UncancellableQueue) (sinks : Sinks RecordingDisplay Mute) (dice : Dice),
        m.onTick ⟨1⟩ refresh sinks dice =
          .ok ⟨m, refresh, sinks, .ok .stale, Journal.ofNotices [.staleTick 1]⟩ := by
  intro factory host
  let load (m : SessionManager ScriptedMachine) (refresh : InFlight UncancellableQueue) (rom : Rom) :
      Completed ScriptedMachine (InFlight UncancellableQueue) :=
    m.beginLoad.2.completeLoad m.beginLoad.1 (.ok rom) refresh
  let started : SessionManager ScriptedMachine := new factory {}
  have swap (m : SessionManager ScriptedMachine) (refresh : InFlight UncancellableQueue)
      (events : List Event) (run : HostedRun RecordingDisplay Mute started host m refresh events)
      (rom : Rom) : HostedRun RecordingDisplay Mute started host (load m refresh rom).manager
        (load m refresh rom).refresh _ :=
    (run.move (Step.beginLoad : Step RecordingDisplay Mute m refresh _ _ _ _) nofun).move
      (.completeLoad _ _ (load m refresh rom) rfl) nofun
  have first := swap _ _ _ .start ⟨"maze", [0x12, 0x00], none⟩
  have second := swap _ _ _ first ⟨"pong", [0xA2, 0x1E], none⟩
  have fired := second.drift rfl
  let due : InFlight UncancellableQueue := ⟨{ queue := ⟨2, []⟩ }, [⟨1⟩, ⟨2⟩]⟩
  let late : InFlight UncancellableQueue := ⟨{ queue := ⟨2, []⟩ }, [⟨2⟩]⟩
  let sinks : Sinks RecordingDisplay Mute := ⟨{}, .mute⟩
  let dice : Dice := fun _ => 0
  have delivers : HonestHost.Delivers due ⟨1⟩ late := ⟨rfl, .refl _⟩
  have run := fired.deliver delivers sinks dice
    ⟨_, late, sinks, .ok .stale, Journal.ofNotices [.staleTick 1]⟩ rfl
  have idle : HonestHost.owed host = 0 := rfl
  obtain ⟨hactive, -, hone, hstale, -⟩ := one_live_tick idle run
  obtain ⟨s, hs, htoken⟩ := (hactive ⟨2⟩).mp rfl
  refine ⟨idle, _, _, _, run, rfl, ?_, ⟨s, hs, htoken⟩, ?_, hstale ⟨1⟩ nofun⟩
  · exact List.mem_append_right _ (List.mem_singleton_self _)
  · rw [← htoken]
    refine (hone s hs).1 fun e he => ?_
    simp at he

end SessionManager

end Chip8Console
