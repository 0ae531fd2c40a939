import Chip8Console.Session.Manager

/-!
The moves of a session manager. Each move leaves one of a few things behind, and these are told here
once: whatever holds of every run is read off them.
-/
namespace Chip8Console

namespace Journal

@[simp] theorem calls_nil : calls [] = [] := rfl

@[simp] theorem calls_ofNotices (notices : List Notice) : (ofNotices notices).calls = [] := by
  induction notices with
  | nil => rfl
  | cons notice rest ih => simp [ofNotices, calls]

end Journal

namespace Display

/-- At a scale that leaves the far corner of the picture a word, so are the corners of all its blocks. -/
theorem isPlaced_of_fits (frame : Frame) {scale : Nat} (fits : (Frame.width - 1) * scale < Word.limit) :
    ∀ b ∈ litBlocks frame.toList Frame.width scale, b.isPlaced = true := by
  intro b hb
  obtain ⟨⟨pixel, i⟩, hpixel, hblock⟩ := List.mem_filterMap.mp hb
  have hi : i < Frame.size := by
    have := (List.mem_zipIdx hpixel).2.1
    simpa using this
  have hcolumn : i % Frame.width ≤ Frame.width - 1 := Nat.le_sub_one_of_lt (Nat.mod_lt _ (by decide))
  have hrow : i / Frame.width ≤ Frame.width - 1 := by
    simp only [Frame.size, Frame.width, Frame.height] at hi ⊢
    omega
  simp only [Option.ite_none_left_eq_some, Option.some.injEq] at hblock
  obtain ⟨-, rfl⟩ := hblock
  simp only [Block.isPlaced, decide_eq_true_eq]
  exact ⟨Nat.lt_of_le_of_lt (Nat.mul_le_mul_right _ hcolumn) fits,
    Nat.lt_of_le_of_lt (Nat.mul_le_mul_right _ hrow) fits⟩

/-- At a scale that leaves the far corner of the picture a word, every picture can be shown. -/
theorem showFrame_isOk {D : Type} [Display D] (screen : D) (frame : Frame) {scale : Nat}
    (fits : (Frame.width - 1) * scale < Word.limit) :
    ∃ shown, showFrame screen frame scale = .ok shown :=
  ⟨_, showPixels_eq_ok screen frame.toList Frame.width scale (by decide) (isPlaced_of_fits frame fits)⟩

end Display

namespace Scheduler
variable {M D S : Type} [Machine M] [Display D] [Sound S]

/-- A tick meets no fault at a scale that leaves the far corner of the picture a word. -/
theorem tick_isOk (s : Scheduler) (machine : M) (sinks : Sinks D S) (dice : Dice)
    (fits : (Frame.width - 1) * s.scale < Word.limit) :
    ∃ ticked, s.tick machine sinks dice = .ok ticked := by
  simp only [tick]
  split
  · obtain ⟨shown, hshown⟩ := Display.showFrame_isOk sinks.display
      (Machine.frame (Machine.tickTimers
        (Machine.runBatch machine (dice.first s.cyclesPerTick)).machine).2.1) fits
    exact ArithmeticFault.bind_isOk hshown ⟨_, rfl⟩
  · exact ⟨_, rfl⟩

/-- A tick that goes through: its cycles, then the timers, then the tone, then the repaint. -/
theorem tick_inversion {s : Scheduler} {machine : M} {sinks : Sinks D S} {dice : Dice}
    {ticked : Ticked M D S} (h : s.tick machine sinks dice = .ok ticked) :
    let batch := Machine.runBatch machine (dice.first s.cyclesPerTick)
    let timed := Machine.tickTimers batch.machine
    let sounded := if timed.1 then Sound.pulse sinks.sound s.tone else (sinks.sound, [])
    ∃ shown display,
      (if s.repaint || batch.redraw then
        Display.showFrame sinks.display (Machine.frame timed.2.1) s.scale
      else .ok (.ok (), sinks.display)) = .ok (shown, display) ∧
      ticked = {
        scheduler := s.counted
        machine := timed.2.1
        sinks := { display, sound := sounded.1 }
        result := match shown with
          | .ok () => .ok { redrawn := s.repaint || batch.redraw, beeped := timed.1 }
          | .error cause => .error (.terminal cause)
        journal := batch.journal ++ timed.2.2 ++ Journal.ofNotices sounded.2 } := by
  intro batch timed sounded
  simp only [tick] at h
  split at h
  · next redrawn =>
    obtain ⟨⟨shown, display⟩, hshown, hticked⟩ := ArithmeticFault.bind_eq_ok_iff.mp h
    refine ⟨shown, display, by rw [if_pos redrawn, hshown], ?_⟩
    cases hticked
    rfl
  · next kept =>
    cases h
    exact ⟨.ok (), sinks.display, if_neg kept, rfl⟩

/-- A tick that goes through is counted, and the first paint is no longer to come. -/
theorem tick_scheduler {s : Scheduler} {machine : M} {sinks : Sinks D S} {dice : Dice}
    {ticked : Ticked M D S} (h : s.tick machine sinks dice = .ok ticked) :
    ticked.scheduler = s.counted := by
  obtain ⟨_, _, _, rfl⟩ := tick_inversion h
  rfl

/-- The machine is left as the step of the timers leaves it behind the batch. -/
theorem tick_machine {s : Scheduler} {machine : M} {sinks : Sinks D S} {dice : Dice}
    {ticked : Ticked M D S} (h : s.tick machine sinks dice = .ok ticked) :
    ticked.machine =
      (Machine.tickTimers (Machine.runBatch machine (dice.first s.cyclesPerTick)).machine).2.1 := by
  obtain ⟨_, _, _, rfl⟩ := tick_inversion h
  rfl

/-- The calls of a tick are those of its cycles and, after them, those of the timers. -/
theorem tick_calls {s : Scheduler} {machine : M} {sinks : Sinks D S} {dice : Dice}
    {ticked : Ticked M D S} (h : s.tick machine sinks dice = .ok ticked) :
    let batch := Machine.runBatch machine (dice.first s.cyclesPerTick)
    ticked.journal.calls = batch.journal.calls ++ (Machine.tickTimers batch.machine).2.2.calls := by
  obtain ⟨_, _, _, rfl⟩ := tick_inversion h
  simp [Journal.calls_append]

end Scheduler

namespace SessionManager
variable {M R D S : Type}

/-- A manager that has done nothing yet. The keys may already have been in use. -/
def new (factory : Nat → M) (settings : SchedulerSettings) (keys : KeyTable := .released) :
    SessionManager M := { factory, settings, keys }

/-- A tick belongs to the running session exactly if it bears the live token and the token of that session. -/
theorem live?_eq_some_iff {m : SessionManager M} {token : Token} {session : Session M} :
    m.live? token = some session ↔
      m.session = some session ∧ m.tokens.active = some token ∧ session.token = token := by
  simp [live?, TokenSource.isActive, Option.filter_eq_some_iff]

def advanced (m : SessionManager M) (session : Session M) (ticked : Scheduler.Ticked M D S)
    (pending : Option TickHandle) : SessionManager M :=
  { m with
    session := some
      { session with machine := ticked.machine, scheduler := ticked.scheduler, pending } }

/-- What can become of a tick that is delivered. -/
inductive Delivery [Machine M] [RefreshHost R] [Display D] [Sound S] (m : SessionManager M)
    (token : Token) (refresh : R) (sinks : Sinks D S) (dice : Dice) : Delivered M R D S → Prop
  | stale (dead : m.live? token = none) : Delivery m token refresh sinks dice
      ⟨m, refresh, sinks, .ok .stale, Journal.ofNotices [.staleTick token.number]⟩
  | failed (session : Session M) (ticked : Scheduler.Ticked M D S) (e : ConsoleError)
      (live : m.live? token = some session)
      (ran : session.scheduler.tick session.machine sinks dice = .ok ticked)
      (result : ticked.result = .error e) : Delivery m token refresh sinks dice
      ⟨m.advanced session ticked none, refresh, ticked.sinks, .error e, ticked.journal⟩
  | ran (session : Session M) (ticked : Scheduler.Ticked M D S) (outcome : TickOutcome)
      (live : m.live? token = some session)
      (ran : session.scheduler.tick session.machine sinks dice = .ok ticked)
      (result : ticked.result = .ok outcome) : Delivery m token refresh sinks dice
      ⟨m.advanced session ticked (some (RefreshHost.request refresh token).1),
        (RefreshHost.request refresh token).2, ticked.sinks, .ok (.ran outcome), ticked.journal⟩

/-- A delivered tick is stale, fails or runs. -/
theorem onTick_delivery [Machine M] [RefreshHost R] [Display D] [Sound S] {m : SessionManager M}
    {token : Token} {refresh : R} {sinks : Sinks D S} {dice : Dice} {delivered : Delivered M R D S}
    (h : m.onTick token refresh sinks dice = .ok delivered) :
    Delivery m token refresh sinks dice delivered := by
  unfold onTick at h
  cases hlive : m.live? token with
  | none =>
    rw [hlive] at h
    cases h
    exact .stale hlive
  | some session =>
    rw [hlive] at h
    cases hticked : session.scheduler.tick session.machine sinks dice with
    | error fault =>
      simp only [hticked, Except.map] at h
      cases h
    | ok ticked =>
      simp only [hticked, Except.map] at h
      cases hresult : ticked.result with
      | error e =>
        rw [hresult] at h
        cases h
        exact .failed session ticked e hlive hticked hresult
      | ok outcome =>
        rw [hresult] at h
        cases h
        exact .ran session ticked outcome hlive hticked hresult

def begun (m : SessionManager M) (machine : M) (rom : Rom) (handle : TickHandle) : SessionManager M :=
  { m with
    awaited := none
    built := m.built + 1
    tokens := m.tokens.activate.2
    keys := .released
    session := some
      { token := m.tokens.activate.1, machine, scheduler := .ofSettings m.settings, rom := rom.name,
        pending := some handle } }

/-- What can become of a selection that is finished. -/
inductive Completion [Machine M] [RefreshHost R] (m : SessionManager M) (ticket : LoadTicket)
    (arrived : Except ConsoleError Rom) (refresh : R) : Completed M R → Prop
  | superseded (unwanted : m.awaited ≠ some ticket) : Completion m ticket arrived refresh
      ⟨m, refresh, .ok none, Journal.ofNotices [.supersededLoad ticket.number]⟩
  | missing (e : ConsoleError) (wanted : m.awaited = some ticket) (failed : arrived = .error e) :
      Completion m ticket arrived refresh ⟨{ m with awaited := none }, refresh, .error e, []⟩
  | refused (rom : Rom) (e : ConsoleError) (wanted : m.awaited = some ticket)
      (came : arrived = .ok rom)
      (refusal : Machine.load (m.factory (m.built + 1)) rom.bytes = .error e) :
      Completion m ticket arrived refresh
        ⟨{ m with awaited := none, built := m.built + 1 }, refresh, .error e, []⟩
  | activated (rom : Rom) (machine : M) (loaded : Journal) (notices : List Notice)
      (wanted : m.awaited = some ticket) (came : arrived = .ok rom)
      (taken : Machine.load (m.factory (m.built + 1)) rom.bytes = .ok (machine, loaded)) :
      Completion m ticket arrived refresh
        ⟨m.begun machine rom (RefreshHost.request (m.retire refresh).1 m.tokens.activate.1).1,
          (RefreshHost.request (m.retire refresh).1 m.tokens.activate.1).2,
          .ok (some m.tokens.activate.1), loaded ++ Journal.ofNotices notices⟩

/-- A selection that is finished was superseded, has no image, is refused by its machine or begins a session.
-/
theorem completeLoad_completion [Machine M] [RefreshHost R] {m : SessionManager M}
    {ticket : LoadTicket} {arrived : Except ConsoleError Rom} {refresh : R} {done : Completed M R}
    (h : m.completeLoad ticket arrived refresh = done) :
    Completion m ticket arrived refresh done := by
  subst h
  unfold completeLoad
  split
  · next unwanted => exact .superseded unwanted
  · next wanted =>
    have wanted : m.awaited = some ticket := by simpa using wanted
    cases arrived with
    | error e => exact .missing e wanted rfl
    | ok rom =>
      simp only
      split
      · next e refusal => exact .refused rom e wanted rfl refusal
      · next machine loaded taken => exact .activated rom machine loaded _ wanted rfl taken

/-- A selection that is no longer wanted changes nothing. -/
theorem completeLoad_superseded [Machine M] [RefreshHost R] {m : SessionManager M}
    {ticket : LoadTicket} (arrived : Except ConsoleError Rom) (refresh : R)
    (unwanted : m.awaited ≠ some ticket) : m.completeLoad ticket arrived refresh =
      ⟨m, refresh, .ok none, Journal.ofNotices [.supersededLoad ticket.number]⟩ :=
  if_pos unwanted

/-- A selection without an image changes nothing but that it is no longer awaited. -/
theorem completeLoad_missing [Machine M] [RefreshHost R] {m : SessionManager M} {ticket : LoadTicket}
    (e : ConsoleError) (refresh : R) (wanted : m.awaited = some ticket) :
    m.completeLoad ticket (.error e) refresh =
      ⟨{ m with awaited := none }, refresh, .error e, []⟩ :=
  if_neg (not_not_intro wanted)

/-- A program that its machine refuses leaves the session that runs alone. -/
theorem completeLoad_refused [Machine M] [RefreshHost R] {m : SessionManager M} {ticket : LoadTicket}
    {rom : Rom} {e : ConsoleError} (refresh : R) (wanted : m.awaited = some ticket)
    (refusal : Machine.load (m.factory (m.built + 1)) rom.bytes = .error e) :
    m.completeLoad ticket (.ok rom) refresh =
      ⟨{ m with awaited := none, built := m.built + 1 }, refresh, .error e, []⟩ := by
  refine (if_neg (not_not_intro wanted)).trans ?_
  simp only [refusal]

/-- A program that its machine takes begins a session. -/
theorem completeLoad_taken [Machine M] [RefreshHost R] {m : SessionManager M} {ticket : LoadTicket}
    {rom : Rom} {machine : M} {loaded : Journal} (refresh : R) (wanted : m.awaited = some ticket)
    (taken : Machine.load (m.factory (m.built + 1)) rom.bytes = .ok (machine, loaded)) :
    let done := activate { m with awaited := none, built := m.built + 1 } refresh machine rom
    m.completeLoad ticket (.ok rom) refresh = { done with journal := loaded ++ done.journal } := by
  refine (if_neg (not_not_intro wanted)).trans ?_
  simp only [taken]

/-- A selection that is wanted and whose image the new machine takes begins a session. -/
theorem completeLoad_begun [Machine M] [RefreshHost R] {m : SessionManager M} {ticket : LoadTicket}
    {rom : Rom} {taken : M × Journal} (refresh : R) (wanted : m.awaited = some ticket)
    (loads : Machine.load (m.factory (m.built + 1)) rom.bytes = .ok taken) :
    let done := m.completeLoad ticket (.ok rom) refresh
    let requested := RefreshHost.request (m.retire refresh).1 m.tokens.activate.1
    done.manager = m.begun taken.1 rom requested.1 ∧ done.refresh = requested.2 ∧
      done.result = .ok (some m.tokens.activate.1) := by
  intro done
  have hdone : m.completeLoad ticket (.ok rom) refresh = done := rfl
  generalize done = done at hdone
  cases completeLoad_completion hdone with
  | superseded unwanted => exact absurd wanted unwanted
  | missing e wanted failed => cases failed
  | refused rom' e wanted came refusal =>
    cases came
    rw [loads] at refusal
    cases refusal
  | activated rom' machine loaded notices wanted came loads' =>
    cases came
    obtain rfl := Except.ok.inj (loads.symm.trans loads')
    exact ⟨rfl, rfl, rfl⟩

inductive Keying [Machine M] (m : SessionManager M) (c : Char) (pressed : Bool) :
    SessionManager M × Journal → Prop
  | kept (unchanged : (m.keys.hostKey c pressed).1 = none ∨ m.session = none) :
      Keying m c pressed ({ m with keys := (m.keys.hostKey c pressed).2 }, [])
  | forwarded (key : Key) (session : Session M)
      (changed : (m.keys.hostKey c pressed).1 = some key) (running : m.session = some session) :
      Keying m c pressed
        ({ m with
            keys := (m.keys.hostKey c pressed).2
            session := some
              { session with machine := (Machine.setKey session.machine key pressed).1 } },
          (Machine.setKey session.machine key pressed).2)

/-- A key of the host is passed on to the machine that runs, if there is one and the key changed. -/
theorem keyEvent_keying [Machine M] {m : SessionManager M} {c : Char} {pressed : Bool}
    {after : SessionManager M × Journal} (h : m.keyEvent c pressed = after) :
    Keying m c pressed after := by
  subst h
  simp only [keyEvent]
  cases hkey : (m.keys.hostKey c pressed).1 with
  | none => exact .kept (.inl hkey)
  | some key =>
    cases hsession : m.session with
    | none =>
      have h : Keying m c pressed _ := .kept (.inr hsession)
      simpa only [hsession] using h
    | some session => exact .forwarded key session hkey hsession

/-- Stopping leaves no session, no selection that is awaited, no live token and no key down. -/
theorem teardown_manager [RefreshHost R] (m : SessionManager M) (refresh : R) :
    (m.teardown refresh).1 =
      { m with awaited := none, session := none, tokens := m.tokens.invalidate, keys := .released } :=
  rfl

/-- Stopping withdraws the same tick that a change of sessions does. -/
theorem teardown_refresh [RefreshHost R] (m : SessionManager M) (refresh : R) :
    (m.teardown refresh).2.1 = (m.retire refresh).1 := by
  cases hsession : m.session <;> simp [teardown, retire, hsession]

/-- What a move came to. -/
inductive Event where
  | selected (ticket : LoadTicket)
  | completed (ticket : LoadTicket) (arrived : Except ConsoleError Rom)
      (result : Except ConsoleError (Option Token))
  | ticked (token : Token) (result : Except ConsoleError TickStatus)
  | keyed (c : Char) (pressed : Bool)
  | tornDown

/-- Whether a tick of this session was delivered and not found stale. -/
def Event.ran (token : Token) : Event → Bool
  | .ticked _ (.ok .stale) => false
  | .ticked other _ => other == token
  | _ => false

/-- A tick that is not stale was run for the session it names, and for no other. -/
theorem Event.ran_ticked_iff {token other : Token} {result : Except ConsoleError TickStatus}
    (fresh : result ≠ .ok .stale) : (Event.ticked other result).ran token = true ↔ token = other := by
  have hran : (Event.ticked other result).ran token = (other == token) := by
    match result with
    | .ok .stale => exact absurd rfl fresh
    | .ok (.ran outcome) => rfl
    | .error e => rfl
  rw [hran, beq_iff_eq, eq_comm]

/-- The session that a move began, if it began one, with the program of its machine. -/
def Event.activation : Event → Option (Token × List UInt8)
  | .completed _ (.ok rom) (.ok (some token)) => some (token, rom.bytes)
  | _ => none

variable [Machine M] [RefreshHost R] [Display D] [Sound S]

variable (D S) in
/-- One move, with what it came to and what it told. It may name any ticket and any token. -/
inductive Step (m : SessionManager M) (refresh : R) :
    Event → Journal → SessionManager M → R → Prop
  | beginLoad : Step m refresh (.selected m.beginLoad.1) [] m.beginLoad.2 refresh
  | completeLoad (ticket : LoadTicket) (arrived : Except ConsoleError Rom) (done : Completed M R)
      (h : m.completeLoad ticket arrived refresh = done) :
      Step m refresh (.completed ticket arrived done.result) done.journal done.manager done.refresh
  | onTick (token : Token) (sinks : Sinks D S) (dice : Dice) (delivered : Delivered M R D S)
      (h : m.onTick token refresh sinks dice = .ok delivered) :
      Step m refresh (.ticked token delivered.result) delivered.journal delivered.manager
        delivered.refresh
  | keyEvent (c : Char) (pressed : Bool) (after : SessionManager M × Journal)
      (h : m.keyEvent c pressed = after) :
      Step m refresh (.keyed c pressed) after.2 after.1 refresh
  | teardown : Step m refresh .tornDown (Journal.ofNotices (m.teardown refresh).2.2)
      (m.teardown refresh).1 (m.teardown refresh).2.1

/-- No move touches the factory or the settings, and machines are only ever added. -/
theorem Step.fixed {m m' : SessionManager M} {refresh refresh' : R} {e : Event} {told : Journal}
    (step : Step D S m refresh e told m' refresh') :
    m'.factory = m.factory ∧ m'.settings = m.settings ∧ m.built ≤ m'.built := by
  cases step with
  | beginLoad => exact ⟨rfl, rfl, Nat.le_refl _⟩
  | completeLoad ticket arrived done h =>
    cases completeLoad_completion h with
    | superseded => exact ⟨rfl, rfl, Nat.le_refl _⟩
    | missing => exact ⟨rfl, rfl, Nat.le_refl _⟩
    | refused => exact ⟨rfl, rfl, Nat.le_succ _⟩
    | activated => exact ⟨rfl, rfl, Nat.le_succ _⟩
  | onTick token sinks dice delivered h =>
    cases onTick_delivery h <;> exact ⟨rfl, rfl, Nat.le_refl _⟩
  | keyEvent c pressed after h =>
    cases keyEvent_keying h <;> exact ⟨rfl, rfl, Nat.le_refl _⟩
  | teardown => exact ⟨rfl, rfl, Nat.le_refl _⟩

/-- A move issues the next token, retires the live one or leaves the tokens alone. -/
theorem Step.tokens {m m' : SessionManager M} {refresh refresh' : R} {e : Event} {told : Journal}
    (step : Step D S m refresh e told m' refresh') :
    m'.tokens = m.tokens ∨ m'.tokens = m.tokens.activate.2 ∨ m'.tokens = m.tokens.invalidate := by
  cases step with
  | beginLoad => exact .inl rfl
  | completeLoad ticket arrived done h =>
    cases completeLoad_completion h with
    | superseded => exact .inl rfl
    | missing => exact .inl rfl
    | refused => exact .inl rfl
    | activated => exact .inr (.inl rfl)
  | onTick token sinks dice delivered h =>
    cases onTick_delivery h <;> exact .inl rfl
  | keyEvent c pressed after h =>
    cases keyEvent_keying h <;> exact .inl rfl
  | teardown => exact .inr (.inr rfl)

/-- A move that begins a session does so on a machine of its own. -/
theorem Step.begins {m m' : SessionManager M} {refresh refresh' : R} {e : Event} {told : Journal}
    (step : Step D S m refresh e told m' refresh') (activation : e.activation.isSome = true) :
    ∃ machine rom handle, m' = m.begun machine rom handle := by
  cases step with
  | completeLoad ticket arrived done h =>
    cases completeLoad_completion h with
    | superseded => cases arrived <;> cases activation
    | missing e wanted failed => subst failed; cases activation
    | refused rom e wanted came => subst came; cases activation
    | activated rom machine => exact ⟨machine, rom, _, rfl⟩
  | beginLoad | onTick | keyEvent | teardown => cases activation

/-- The fixed part of the running scheduler is what the settings ask for. -/
def Configured (m : SessionManager M) : Prop :=
  ∀ s, m.session = some s →
    s.scheduler.cyclesPerTick = max m.settings.cyclesPerTick 1 ∧
    s.scheduler.scale = max m.settings.scale 1 ∧ s.scheduler.tone = m.settings.tone

omit [Machine M] in
theorem configured_new (factory : Nat → M) (settings : SchedulerSettings) (keys : KeyTable) :
    (new factory settings keys).Configured := fun _ hs => nomatch hs

omit [RefreshHost R] in
private theorem Configured.advanced {m : SessionManager M} (h : m.Configured) {token : Token}
    {session : Session M} {sinks : Sinks D S} {dice : Dice} {ticked : Scheduler.Ticked M D S}
    (live : m.live? token = some session)
    (ran : session.scheduler.tick session.machine sinks dice = .ok ticked)
    (pending : Option TickHandle) : (m.advanced session ticked pending).Configured := by
  intro s hs
  cases hs
  change ticked.scheduler.cyclesPerTick = _ ∧ ticked.scheduler.scale = _ ∧ ticked.scheduler.tone = _
  rw [Scheduler.tick_scheduler ran]
  exact h session (live?_eq_some_iff.mp live).1

/-- No move loses the settings. -/
theorem Step.configured {m m' : SessionManager M} {refresh refresh' : R} {e : Event}
    {told : Journal} (step : Step D S m refresh e told m' refresh') (h : m.Configured) :
    m'.Configured := by
  cases step with
  | beginLoad => exact h
  | completeLoad ticket arrived done hdone =>
    cases completeLoad_completion hdone with
    | superseded => exact h
    | missing => exact h
    | refused => exact h
    | activated =>
      intro s hs
      cases hs
      exact ⟨rfl, rfl, rfl⟩
  | onTick token sinks dice delivered hdelivered =>
    cases onTick_delivery hdelivered with
    | stale => exact h
    | failed session ticked e live ran => exact h.advanced live ran _
    | ran session ticked outcome live ran => exact h.advanced live ran _
  | keyEvent c pressed after hafter =>
    cases keyEvent_keying hafter with
    | kept => exact h
    | forwarded key session changed running =>
      intro s hs
      cases hs
      exact h session running
  | teardown => exact fun s hs => nomatch hs

/-- A delivered tick meets no fault at a scale that leaves the far corner of the picture a word. -/
theorem Configured.onTick_isOk {m : SessionManager M} (h : m.Configured)
    (fits : (Frame.width - 1) * max m.settings.scale 1 < Word.limit) (token : Token) (refresh : R)
    (sinks : Sinks D S) (dice : Dice) :
    ∃ delivered, m.onTick token refresh sinks dice = .ok delivered := by
  unfold onTick
  cases hlive : m.live? token with
  | none => exact ⟨_, rfl⟩
  | some session =>
    have hscale := (h session (live?_eq_some_iff.mp hlive).1).2.1
    obtain ⟨ticked, hticked⟩ := session.scheduler.tick_isOk session.machine sinks dice (hscale ▸ fits)
    simp only [hticked, Except.map]
    exact ⟨_, rfl⟩

variable (R D S) in
/-- A run of moves, with what they came to and what they told. The host of the refreshes and the sinks
are anew at each move what they happen to be. -/
inductive Run (m₀ : SessionManager M) : SessionManager M → List Event → Journal → Prop
  | start : Run m₀ m₀ [] []
  | step {m m' : SessionManager M} {events : List Event} {journal told : Journal} {e : Event}
      {refresh refresh' : R} (run : Run m₀ m events journal)
      (step : Step D S m refresh e told m' refresh') : Run m₀ m' (events ++ [e]) (journal ++ told)

/-- Tokens that were issued stay issued. -/
theorem Run.issued_le {m₀ m : SessionManager M} {events : List Event} {journal : Journal}
    (run : Run R D S m₀ m events journal) : m₀.tokens.issued ≤ m.tokens.issued := by
  induction run with
  | start => exact Nat.le_refl _
  | step run step ih =>
    rcases step.tokens with htokens | htokens | htokens <;> rw [htokens]
    · exact ih
    · exact Nat.le_succ_of_le ih
    · exact ih

/-- Over a whole run the running scheduler keeps to the settings. -/
theorem Run.configured {m₀ m : SessionManager M} {events : List Event} {journal : Journal}
    (run : Run R D S m₀ m events journal) (h : m₀.Configured) : m.Configured := by
  induction run with
  | start => exact h
  | step run step ih => exact step.configured ih

/-- No run touches the factory or the settings. -/
theorem Run.fixed {m₀ m : SessionManager M} {events : List Event} {journal : Journal}
    (run : Run R D S m₀ m events journal) : m.factory = m₀.factory ∧ m.settings = m₀.settings := by
  induction run with
  | start => exact ⟨rfl, rfl⟩
  | step run step ih => exact ⟨step.fixed.1.trans ih.1, step.fixed.2.1.trans ih.2⟩

end SessionManager

end Chip8Console
