import Chip8Console.Proofs.HeldKeys
import Chip8Console.Proofs.TerminalLife

/-!
Key events fed to the sessions through a translator. The table of keys is cleared when a session begins,
but a translator is not told of sessions: for a terminal without releases it goes on holding the keys
that were down before, and says nothing of a press of such a key until the hold has ended.
-/
namespace Chip8Console

open HostEvent (turns)

private theorem downAfter_append (turns later : List Bool) :
    downAfter (turns ++ later) = if later = [] then downAfter turns else downAfter later := by
  unfold downAfter
  split
  · next silent => rw [silent, List.append_nil]
  · next told => rw [List.getLast?_append_of_ne_nil _ told]

private theorem downAfter_press (before since : List Bool) :
    downAfter (since ++ if downAfter (before ++ since) = true then [] else [true]) = true ↔
      downAfter before = false ∨ since ≠ [] := by
  -- a press told of only if the key was up is missed by those who began to listen while it was down and have
  -- heard nothing since
  rw [downAfter_append before since]
  by_cases unheard : since = []
  · subst unheard
    cases downAfter before <;> simp [downAfter]
  · cases down : downAfter since <;> simp [unheard, down, downAfter_concat]

private theorem toLower_toLower (c : Char) : c.toLower.toLower = c.toLower := by
  by_cases upper : c.val ≥ 'A'.val ∧ c.val ≤ 'Z'.val
  · refine dif_neg fun still => ?_
    have lowered : c.toLower.val = c.val + 32 := congrArg Char.val (dif_pos upper)
    rw [lowered] at still
    simp only [ge_iff_le, UInt32.le_iff_toNat_le, UInt32.toNat_add] at still upper
    change 65 ≤ _ ∧ _ ≤ 90 at upper
    change 65 ≤ (_ + 32) % _ ∧ (_ + 32) % _ ≤ 90 at still
    omega
  · have kept : c.toLower = c := dif_neg upper
    rw [kept, kept]

private theorem KeyEvent.toLower_of_holds_or_frees {e : KeyEvent} {c : Char}
    (h : e.holds c = true ∨ e.frees c = true) : c.toLower = c := by
  unfold holds frees at h
  split at h
  · next k _ =>
    simp only [Bool.and_eq_true, beq_iff_eq] at h
    obtain ⟨⟨rfl, -⟩, -⟩ | ⟨rfl, -⟩ := h <;> exact toLower_toLower k
  · simp at h

namespace KeyTranslator
variable {t after : KeyTranslator} {e : KeyEvent} {events : List HostEvent} {c : Char}

private theorem turns_translate_enhanced (enhanced : t.enhanced = true)
    (h : t.translate e = .ok (events, after)) :
    turns events c = if e.motion = .repeated then [] else
      if e.holds c then [true] else if e.frees c then [false] else [] := by
  unfold translate at h
  split at h
  · next quits =>
    cases h
    obtain ⟨unheld, unfreed⟩ := KeyEvent.idle_of_quits quits c
    simp [unheld, unfreed, turns]
  · next stays =>
    split at h
    · next k code =>
      rw [translateChar, if_pos enhanced] at h
      cases h
      have stays : ¬ (k = 'c' ∧ e.control = true) ∨ e.motion = .release := by
        by_contra! ends
        simp [quits, code, ends] at stays
      cases motion : e.motion <;> by_cases same : k.toLower = c <;>
        simp_all [KeyEvent.holds, KeyEvent.frees]
    · next n code =>
      cases h
      obtain ⟨unheld, unfreed⟩ := KeyEvent.idle_of_code (e := e) (by simp [code]) c
      simp only [unheld, unfreed, Bool.false_eq_true, if_false, ite_self]
      split <;> rfl
    all_goals
      next code =>
        cases h
        obtain ⟨unheld, unfreed⟩ := KeyEvent.idle_of_code (e := e) (by simp [code]) c
        simp [unheld, unfreed]

private theorem toLower_of_translate (h : t.translate e = .ok (events, after))
    (told : turns events c ≠ []) :
    c.toLower = c := by
  apply KeyEvent.toLower_of_holds_or_frees (e := e)
  by_contra idle
  obtain ⟨unheld, unfreed⟩ := not_or.mp idle
  refine told ?_
  cases enhanced : t.enhanced with
  | true => simp [turns_translate_enhanced enhanced h, unheld, unfreed]
  | false =>
    have translated := translation_of_translate enhanced h
    rw [translated.tells c, if_pos]
    rw [ReleaseLatch.isHeld, ReleaseLatch.isHeld, translated.due?, if_neg unheld, if_neg unfreed]

end KeyTranslator

namespace SessionManager
variable {M R D S : Type} [Machine M]

def keyEvents (m : SessionManager M) : List HostEvent → SessionManager M × Journal
  | [] => (m, [])
  | .key c pressed :: rest =>
    let (m, told) := m.keyEvent c pressed
    let (m, others) := m.keyEvents rest
    (m, told ++ others)
  | .selectSlot _ :: rest | .quit :: rest => m.keyEvents rest

/-- Whether a move begins a session or ends the last one. -/
def Event.changesSession (e : Event) : Bool :=
  e.activation.isSome || match e with
    | .tornDown => true
    | _ => false

variable [RefreshHost R] [Display D] [Sound S] {m m' : SessionManager (Overheard M)}

private theorem Step.session_goes_on {refresh refresh' : R} {e : Event} {told : Journal}
    (step : Step D S m refresh e told m' refresh') (unkeyed : ∀ c pressed, e ≠ .keyed c pressed)
    (lasts : e.changesSession = false) {s : Session (Overheard M)} (running : m.session = some s) :
    m'.keys = m.keys ∧ ∃ s', m'.session = some s' ∧ s'.machine.number = s.machine.number := by
  cases step with
  | beginLoad => exact ⟨rfl, s, running, rfl⟩
  | completeLoad ticket arrived done hdone =>
    cases completeLoad_completion hdone with
    | superseded | missing | refused => exact ⟨rfl, s, running, rfl⟩
    | activated rom machine loaded notices wanted came =>
      subst came
      cases lasts
  | onTick token sinks dice delivered hdelivered =>
    cases onTick_delivery hdelivered with
    | stale => exact ⟨rfl, s, running, rfl⟩
    | failed session ticked _ live ran | ran session ticked _ live ran =>
      cases running.symm.trans (live?_eq_some_iff.mp live).1
      obtain ⟨plain, -, rfl⟩ := Overheard.tick_inversion ran
      exact ⟨rfl, _, rfl, rfl⟩
  | keyEvent c pressed => exact absurd rfl (unkeyed c pressed)
  | teardown => cases lasts

/-- Since its session began machine `number` was told, in these calls, of every key that is down, and the
keys that are down are those that the host events since then speak of last as down. -/
structure Informed (m : SessionManager (Overheard M)) (number : Nat) (stream : List HostEvent)
    (calls : CallLog) : Prop where
  running : ∃ s, m.session = some s ∧ s.machine.number = number
  agree : ∀ key, m.keys.isDown key = downAfter (turns stream key.host)
  heard : ∀ key, m.keys.isDown key = true → (number, .setKey key true) ∈ calls

private theorem Informed.keyEvent {number : Nat} {stream : List HostEvent} {calls : CallLog}
    (h : m.Informed number stream calls) {c : Char} (lower : c.toLower = c) (pressed : Bool) :
    (m.keyEvent c pressed).1.Informed number (stream ++ [.key c pressed])
      (calls ++ (m.keyEvent c pressed).2.calls) := by
  obtain ⟨s, running, numbered⟩ := h.running
  have agree (key : Key) : (m.keys.hostKey c pressed).2.isDown key =
      downAfter (turns (stream ++ [.key c pressed]) key.host) := by
    rw [KeyTable.isDown_hostKey, HostEvent.turns_append, HostEvent.turns_key, lower]
    split
    · rw [downAfter_concat]
    · rw [List.append_nil, h.agree]
  -- a key that is down now either was down before or has just been changed
  have newly (key : Key) (down : (m.keys.hostKey c pressed).2.isDown key = true) :
      m.keys.isDown key = true ∨ (m.keys.hostKey c pressed).1 = some key ∧ pressed = true := by
    rw [KeyTable.isDown_hostKey] at down
    rw [KeyTable.hostKey_eq_some_iff]
    split at down
    · next same =>
      rw [down]
      cases m.keys.isDown key
      · exact .inr ⟨⟨same, nofun⟩, rfl⟩
      · exact .inl rfl
    · exact .inl down
  have keying : Keying m c pressed _ := keyEvent_keying rfl
  generalize m.keyEvent c pressed = after at keying
  cases keying with
  | kept unchanged =>
    have unchanged := unchanged.resolve_right (by rw [running]; nofun)
    refine ⟨⟨s, running, numbered⟩, agree, fun key down => ?_⟩
    obtain before | ⟨changed, -⟩ := newly key down
    · exact List.mem_append_left _ (h.heard key before)
    · rw [unchanged] at changed
      cases changed
  | forwarded other session changed going =>
    cases going.symm.trans running
    refine ⟨⟨_, rfl, numbered⟩, agree, fun key down => ?_⟩
    obtain before | ⟨same, rfl⟩ := newly key down
    · exact List.mem_append_left _ (h.heard key before)
    · cases changed.symm.trans same
      rw [← numbered]
      exact List.mem_append_right _ (List.mem_cons_self)

omit [Machine M] in
private theorem Informed.skip {number : Nat} {stream events : List HostEvent} {calls : CallLog}
    (h : m.Informed number stream calls) (silent : ∀ c, turns events c = []) :
    m.Informed number (stream ++ events) calls where
  running := h.running
  agree key := by rw [HostEvent.turns_append, silent, List.append_nil, h.agree]
  heard := h.heard

private theorem Informed.keyEvents {number : Nat} {stream : List HostEvent} {calls : CallLog}
    (h : m.Informed number stream calls) {events : List HostEvent}
    (lower : ∀ c, turns events c ≠ [] → c.toLower = c) :
    (m.keyEvents events).1.Informed number (stream ++ events)
      (calls ++ (m.keyEvents events).2.calls) := by
  induction events generalizing m stream calls with
  | nil => simpa [SessionManager.keyEvents] using h
  | cons event rest ih =>
    have later : ∀ c, turns rest c ≠ [] → c.toLower = c := fun c told => lower c (by
      rw [← List.singleton_append, HostEvent.turns_append]
      exact List.append_ne_nil_of_right_ne_nil _ told)
    cases event with
    | key c pressed =>
      have first := h.keyEvent (lower c (by
        rw [← List.singleton_append, HostEvent.turns_append, HostEvent.turns_key]
        simp)) pressed
      simpa [SessionManager.keyEvents, Journal.calls_append] using ih first later
    | selectSlot slot =>
      have skipped := h.skip (fun c => rfl : ∀ c, turns [.selectSlot slot] c = [])
      simpa [SessionManager.keyEvents] using ih skipped later
    | quit =>
      have skipped := h.skip (fun c => rfl : ∀ c, turns [.quit] c = [])
      simpa [SessionManager.keyEvents] using ih skipped later

private theorem Step.informed {refresh refresh' : R} {e : Event} {told : Journal}
    (step : Step D S m refresh e told m' refresh') (activation : e.activation.isSome = true) :
    ∃ number, m'.Informed number [] [] := by
  obtain ⟨machine, rom, handle, rfl⟩ := step.begins activation
  refine ⟨machine.number, ⟨_, rfl, rfl⟩, fun key => KeyTable.isDown_released key, fun key down => ?_⟩
  rw [show (m.begun machine rom handle).keys.isDown key = false from KeyTable.isDown_released key] at down
  cases down

end SessionManager

/-- A translator whose keys are handed to the sessions. -/
structure KeyFeed (M : Type) where
  translator : KeyTranslator
  sessions : SessionManager M

namespace KeyFeed

inductive Happening where
  | refreshed
  | typed (e : KeyEvent)
  /-- the releases due at a refresh were made up -/
  | wentQuiet
  /-- the sessions made a move that is no key -/
  | moved (e : SessionManager.Event)

def Happening.changesSession : Happening → Bool
  | .moved e => e.changesSession
  | _ => false

section
variable {M : Type} [Machine M]

def hand (f : KeyFeed M) (translated : List HostEvent × KeyTranslator) : KeyFeed M × Journal :=
  let (sessions, told) := f.sessions.keyEvents translated.1
  (⟨translated.2, sessions⟩, told)

variable (R D S : Type) [RefreshHost R] [Display D] [Sound S]

/-- What can happen to a feed, with the host events translated and what was told. -/
inductive Move (f : KeyFeed M) : Happening → List HostEvent → Journal → KeyFeed M → Prop
  | refreshed : Move f .refreshed [] [] { f with translator := f.translator.beginRefresh }
  | typed (e : KeyEvent) (translated : List HostEvent × KeyTranslator)
      (h : f.translator.translate e = .ok translated) :
      Move f (.typed e) translated.1 (f.hand translated).2 (f.hand translated).1
  | wentQuiet (translated : List HostEvent × KeyTranslator)
      (h : f.translator.madeUpReleases = translated) :
      Move f .wentQuiet translated.1 (f.hand translated).2 (f.hand translated).1
  | moved {e : SessionManager.Event} {told : Journal} {sessions : SessionManager M}
      {refresh refresh' : R}
      (step : SessionManager.Step D S f.sessions refresh e told sessions refresh')
      (unkeyed : ∀ c pressed, e ≠ .keyed c pressed) : Move f (.moved e) [] told { f with sessions }

inductive Run (f₀ : KeyFeed M) : KeyFeed M → List Happening → List HostEvent → Journal → Prop
  | start : Run f₀ f₀ [] [] []
  | move {f f' : KeyFeed M} {happenings : List Happening} {happening : Happening}
      {stream events : List HostEvent} {journal told : Journal}
      (run : Run f₀ f happenings stream journal) (move : Move R D S f happening events told f') :
      Run f₀ f' (happenings ++ [happening]) (stream ++ events) (journal ++ told)

end

/-- Only lower-case keys are told of, and a translator for terminals without releases holds those that
are down. -/
structure Spoken (t : KeyTranslator) (enhanced : Bool) (stream : List HostEvent) : Prop where
  reports : t.enhanced = enhanced
  lower : ∀ c, turns stream c ≠ [] → c.toLower = c
  inStep : enhanced = false → t.latch.InStep stream

variable {t after : KeyTranslator} {enhanced : Bool} {stream events : List HostEvent}

private theorem spoken_ofHold (enhanced : Bool) (hold : Nat) :
    Spoken (.ofHold enhanced hold) enhanced [] where
  reports := rfl
  lower _ told := absurd rfl told
  inStep _ := ReleaseLatch.inStep_ofHold hold

private theorem Spoken.translate {e : KeyEvent} (h : Spoken t enhanced stream)
    (translated : t.translate e = .ok (events, after)) : Spoken after enhanced (stream ++ events) where
  reports := (KeyTranslator.translate_enhanced translated).trans h.reports
  lower c told := by
    by_cases before : turns stream c = []
    · rw [HostEvent.turns_append, before, List.nil_append] at told
      exact KeyTranslator.toLower_of_translate translated told
    · exact h.lower c before
  inStep fallback :=
    have translation := KeyTranslator.translation_of_translate (h.reports.trans fallback) translated
    translation.inStep (h.inStep fallback)

private theorem Spoken.madeUpReleases (h : Spoken t enhanced stream) :
    Spoken t.madeUpReleases.2 enhanced (stream ++ t.madeUpReleases.1) := by
  cases enhanced with
  | true =>
    rw [KeyTranslator.madeUpReleases, if_pos h.reports, List.append_nil]
    exact h
  | false =>
    have inStep := h.inStep rfl
    rw [KeyTranslator.madeUpReleases_fallback h.reports]
    refine ⟨h.reports, fun c told => h.lower c fun unspoken => ?_, fun _ => inStep.expire _⟩
    -- only a key that was down goes quiet, so it was told of before
    have up : t.latch.due? c = none := by
      simpa [unspoken, downAfter, ReleaseLatch.isHeld] using (inStep.told c).symm
    rw [HostEvent.turns_append, unspoken, List.nil_append, inStep.distinct.tells_expire,
      ReleaseLatch.isHeld, ReleaseLatch.isHeld, inStep.distinct.due?_expire, up] at told
    exact told rfl

variable {M R D S : Type} [Machine M] [RefreshHost R] [Display D] [Sound S]

section
variable {f f' : KeyFeed M} {happening : Happening} {journal told : Journal}

private theorem Move.spoken (h : Spoken f.translator enhanced stream)
    (move : Move R D S f happening events told f') :
    Spoken f'.translator enhanced (stream ++ events) := by
  cases move with
  | refreshed | moved => simpa using ⟨h.reports, h.lower, h.inStep⟩
  | typed e translated ok => exact h.translate ok
  | wentQuiet translated quiet =>
    subst quiet
    exact h.madeUpReleases

private theorem Run.spoken {happenings : List Happening} (h : Spoken f.translator enhanced stream)
    (run : Run R D S f f' happenings events told) :
    Spoken f'.translator enhanced (stream ++ events) := by
  induction run with
  | start => simpa using h
  | move run move ih => simpa using move.spoken ih

end

section
variable {f f' : KeyFeed (Overheard M)} {number : Nat}

private theorem Move.informed {happening : Happening} {told : Journal} {calls : CallLog}
    {before : List HostEvent} (h : f.sessions.Informed number stream calls)
    (move : Move R D S f happening events told f') (spoken : Spoken f.translator enhanced before)
    (lasts : happening.changesSession = false) :
    f'.sessions.Informed number (stream ++ events) (calls ++ told.calls) := by
  have lower (c : Char) (spoke : turns events c ≠ []) : c.toLower = c := by
    refine (move.spoken spoken).lower c ?_
    rw [HostEvent.turns_append]
    exact List.append_ne_nil_of_right_ne_nil _ spoke
  cases move with
  | refreshed => simpa using h
  | typed e translated ok => exact h.keyEvents lower
  | wentQuiet => exact h.keyEvents lower
  | moved step unkeyed =>
    obtain ⟨s, running, numbered⟩ := h.running
    obtain ⟨keys, s', running', same⟩ := step.session_goes_on unkeyed lasts running
    rw [List.append_nil]
    refine ⟨⟨s', running', same.trans numbered⟩, fun key => ?_, fun key down => ?_⟩
    · rw [keys]
      exact h.agree key
    · rw [keys] at down
      exact List.mem_append_left _ (h.heard key down)

private theorem Run.informed {happenings : List Happening} {journal : Journal}
    {before : List HostEvent} (h : f.sessions.Informed number [] [])
    (spoken : Spoken f.translator enhanced before)
    (run : Run R D S f f' happenings stream journal)
    (lasts : ∀ happening ∈ happenings, happening.changesSession = false) :
    f'.sessions.Informed number stream journal.calls := by
  induction run with
  | start => exact h
  | move run move ih =>
    have earlier := ih fun happening h => lasts happening (List.mem_append_left _ h)
    rw [Journal.calls_append]
    exact move.informed earlier (run.spoken spoken)
      (lasts _ (List.mem_append_right _ (List.mem_singleton_self _)))

end

variable {factory : Nat → M} {settings : SchedulerSettings} {keys : KeyTable} {hold : Nat}
variable {f₀ f₁ f₂ f₃ : KeyFeed (Overheard M)}

/-- When a press of a mapped key comes through after a session began. The key is then down and the new
machine has been told so, however often it was pressed before. A terminal that reports releases always
gets there. Any other does if the key was up when the session began or something has been told of it
since; else the press only renews the hold, and the session goes without the key. -/
theorem press_comes_through_iff {earlier since : List Happening}
    {stream₀ stream₁ pressed : List HostEvent} {journal₀ journal₁ told₀ told : Journal}
    {a : SessionManager.Event} {e : KeyEvent} {c : Char} {key : Key}
    (before : Run R D S
      ⟨.ofHold enhanced hold, .new (fun k => (⟨k, factory k⟩ : Overheard M)) settings keys⟩
      f₀ earlier stream₀ journal₀)
    (begins : Move R D S f₀ (.moved a) [] told₀ f₁) (activation : a.activation.isSome = true)
    (run : Run R D S f₁ f₂ since stream₁ journal₁)
    (lasts : ∀ happening ∈ since, happening.changesSession = false)
    (press : Move R D S f₂ (.typed e) pressed told f₃) (motion : e.motion = .press)
    (holds : e.holds c = true) (mapped : Key.ofChar? c = some key) :
    (f₃.sessions.keys.isDown key = true ↔
      enhanced = true ∨ downAfter (turns stream₀ c) = false ∨ turns stream₁ c ≠ []) ∧
    (f₃.sessions.keys.isDown key = true → ∃ s, f₃.sessions.session = some s ∧
      (s.machine.number, .setKey key true) ∈ (journal₁ ++ told).calls) := by
  have lower := KeyEvent.toLower_of_holds_or_frees (.inl holds)
  obtain rfl : c = key.host := lower.symm.trans (Key.ofChar?_eq_some_iff.mp mapped)
  have spoken₀ := before.spoken (spoken_ofHold enhanced hold)
  have spoken₁ := begins.spoken spoken₀
  have spoken₂ := run.spoken spoken₁
  obtain ⟨number, fresh⟩ : ∃ number, f₁.sessions.Informed number [] [] := by
    cases begins with
    | moved step => exact step.informed activation
  have informed := press.informed (run.informed fresh spoken₁ lasts) spoken₂ rfl
  refine ⟨?_, fun down => ?_⟩
  · rw [informed.agree key, HostEvent.turns_append]
    cases press with
    | typed e translated ok =>
      cases enhanced with
      | true =>
        have told : turns translated.1 key.host = [true] := by
          rw [KeyTranslator.turns_translate_enhanced spoken₂.reports ok, motion, holds]
          rfl
        rw [told, downAfter_concat]
        exact iff_of_true rfl (.inl rfl)
      | false =>
        have translation := KeyTranslator.translation_of_translate spoken₂.reports ok
        have held : translated.2.latch.isHeld key.host = true := by
          rw [ReleaseLatch.isHeld, translation.due?, if_pos holds]
          rfl
        have told := translation.tells key.host
        rw [held, ← (spoken₂.inStep rfl).told, List.append_nil, HostEvent.turns_append] at told
        rw [told, downAfter_press]
        simp
  · obtain ⟨s, running, rfl⟩ := informed.running
    refine ⟨s, running, ?_⟩
    rw [Journal.calls_append]
    exact informed.heard key down

/-- A key is pressed, a session begins, its hold ends two refreshes later, and it is pressed again. -/
theorem press_comes_through_after_release :
    let start : KeyFeed (Overheard Interpreter) := ⟨.ofHold false 2, .new (fun k => ⟨k, .initial⟩) {}⟩
    let w : KeyEvent := ⟨.char 'w', .press, false⟩
    ∃ f₀ f₁ f₂ f₃ earlier since stream₀ stream₁ pressed journal₀ journal₁ told₀ told a,
      Run RefreshQueue RecordingDisplay Mute start f₀ earlier stream₀ journal₀ ∧
      Move RefreshQueue RecordingDisplay Mute f₀ (.moved a) [] told₀ f₁ ∧ a.activation.isSome = true ∧
      Run RefreshQueue RecordingDisplay Mute f₁ f₂ since stream₁ journal₁ ∧
      Move RefreshQueue RecordingDisplay Mute f₂ (.typed w) pressed told f₃ ∧
      turns stream₀ 'w' = [true] ∧ turns stream₁ 'w' = [false] ∧
      f₃.sessions.keys.isDown 0x5 = true ∧ ∃ s, f₃.sessions.session = some s ∧
        (s.machine.number, .setKey 0x5 true) ∈ (journal₁ ++ told).calls := by
  intro start w
  let held (refreshes : Nat) : KeyTranslator := ⟨false, ⟨2, [('w', 3)]⟩, refreshes⟩
  let rom : Rom := ⟨"pong", [0x12, 0x00], none⟩
  let f₀ : KeyFeed (Overheard Interpreter) :=
    ⟨held 1, (start.sessions.keyEvent 'w' true).1.beginLoad.2⟩
  let f₁ : KeyFeed (Overheard Interpreter) :=
    ⟨held 1, (f₀.sessions.completeLoad ⟨1⟩ (.ok rom) ({} : RefreshQueue)).manager⟩
  let f₂ : KeyFeed (Overheard Interpreter) :=
    ⟨⟨false, ⟨2, []⟩, 3⟩, (f₁.sessions.keyEvent 'w' false).1⟩
  have typed : Run RefreshQueue RecordingDisplay Mute start _ _ _ _ :=
    ((Run.start.move .refreshed).move (.typed w ([.key 'w' true], held 1) rfl)).move
      (.wentQuiet ([], held 1) (by decide +kernel))
  have before : Run RefreshQueue RecordingDisplay Mute start f₀ _ _ _ := typed.move
    (.moved (.beginLoad : SessionManager.Step RecordingDisplay Mute _ ({} : RefreshQueue) _ _ _ _) nofun)
  have begins : Move RefreshQueue RecordingDisplay Mute f₀ (.moved _) [] _ f₁ :=
    .moved (.completeLoad ⟨1⟩ (.ok rom) _ rfl :
      SessionManager.Step RecordingDisplay Mute _ ({} : RefreshQueue) _ _ _ _) nofun
  have waited : Run RefreshQueue RecordingDisplay Mute f₁ _ _ _ _ :=
    (Run.start.move .refreshed).move (.wentQuiet ([], held 2) (by decide +kernel))
  have since : Run RefreshQueue RecordingDisplay Mute f₁ f₂ _ _ _ :=
    (waited.move .refreshed).move
      (.wentQuiet ([.key 'w' false], ⟨false, ⟨2, []⟩, 3⟩) (by decide +kernel))
  have press : Move RefreshQueue RecordingDisplay Mute f₂ (.typed w) _ _ _ :=
    .typed w ([.key 'w' true], ⟨false, ⟨2, [('w', 5)]⟩, 3⟩) rfl
  obtain ⟨comes, hears⟩ := press_comes_through_iff before begins rfl since (by decide) press rfl
    (by decide) (rfl : Key.ofChar? 'w' = some 0x5)
  have down := comes.mpr (.inr (.inr (by decide)))
  exact ⟨_, _, _, _, _, _, _, _, _, _, _, _, _, _, before, begins, rfl, since, press, by decide,
    by decide, down, hears down⟩

/-- A key is pressed, a session begins while it is held, and it is pressed again: the key stays up and
the new machine is told nothing. -/
theorem stale_hold_blocks_press :
    let start : KeyFeed (Overheard Interpreter) := ⟨.ofHold false 6, .new (fun k => ⟨k, .initial⟩) {}⟩
    let w : KeyEvent := ⟨.char 'w', .press, false⟩
    ∃ f₀ f₁ f₂ f₃ earlier stream₀ stream₁ pressed journal₀ journal₁ told₀ told a,
      Run RefreshQueue RecordingDisplay Mute start f₀ earlier stream₀ journal₀ ∧
      Move RefreshQueue RecordingDisplay Mute f₀ (.moved a) [] told₀ f₁ ∧ a.activation.isSome = true ∧
      Run RefreshQueue RecordingDisplay Mute f₁ f₂ [.refreshed] stream₁ journal₁ ∧
      Move RefreshQueue RecordingDisplay Mute f₂ (.typed w) pressed told f₃ ∧
      Key.ofChar? 'w' = some 0x5 ∧ f₃.sessions.keys.isDown 0x5 = false ∧
      f₃.sessions.session.isSome = true ∧ (journal₁ ++ told).calls = [] := by
  intro start w
  let held (ends refreshes : Nat) : KeyTranslator := ⟨false, ⟨6, [('w', ends)]⟩, refreshes⟩
  let rom : Rom := ⟨"pong", [0x12, 0x00], none⟩
  let f₀ : KeyFeed (Overheard Interpreter) :=
    ⟨held 7 1, (start.sessions.keyEvent 'w' true).1.beginLoad.2⟩
  let f₁ : KeyFeed (Overheard Interpreter) :=
    ⟨held 7 1, (f₀.sessions.completeLoad ⟨1⟩ (.ok rom) ({} : RefreshQueue)).manager⟩
  have typed : Run RefreshQueue RecordingDisplay Mute start _ _ _ _ :=
    ((Run.start.move .refreshed).move (.typed w ([.key 'w' true], held 7 1) rfl)).move
      (.wentQuiet ([], held 7 1) (by decide +kernel))
  have before : Run RefreshQueue RecordingDisplay Mute start f₀ _ _ _ := typed.move
    (.moved (.beginLoad : SessionManager.Step RecordingDisplay Mute _ ({} : RefreshQueue) _ _ _ _) nofun)
  have begins : Move RefreshQueue RecordingDisplay Mute f₀ (.moved _) [] _ f₁ :=
    .moved (.completeLoad ⟨1⟩ (.ok rom) _ rfl :
      SessionManager.Step RecordingDisplay Mute _ ({} : RefreshQueue) _ _ _ _) nofun
  have since : Run RefreshQueue RecordingDisplay Mute f₁ ⟨held 7 2, f₁.sessions⟩ [.refreshed] _ _ :=
    Run.start.move .refreshed
  have press : Move RefreshQueue RecordingDisplay Mute ⟨held 7 2, f₁.sessions⟩ (.typed w) _ _ _ :=
    .typed w ([], held 8 2) rfl
  exact ⟨_, _, _, _, _, _, _, _, _, _, _, _, _, before, begins, rfl, since, press, rfl,
    by decide +kernel, by decide +kernel, by decide +kernel⟩

end KeyFeed

end Chip8Console
