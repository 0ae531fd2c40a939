import Mathlib.Data.List.Chain
import Chip8Console.Machine.Interpreter
import Chip8Console.Proofs.InstructionEffects
import Chip8Console.Proofs.OverheardMachine
import Chip8Console.Screen.Recording

/-!
The keys of the running machine and those of the console. Only changes are passed on, and still the two
never differ; no machine is told that a key is in the state it was told last.
-/
namespace Chip8Console

private theorem KeyTable.hostKey_cases (table : KeyTable) (c : Char) (pressed : Bool) :
    (∃ key, (table.hostKey c pressed).1 = some key ∧ pressed = !table.isDown key ∧
      (table.hostKey c pressed).2 = table.set key pressed) ∨
    ((table.hostKey c pressed).1 = none ∧
      ∀ key, (table.hostKey c pressed).2.isDown key = table.isDown key) := by
  unfold hostKey
  cases Key.ofChar? c with
  | none => exact .inr ⟨rfl, fun _ => rfl⟩
  | some key =>
    by_cases same : table.isDown key = pressed
    · refine .inr ⟨by simp [change, same], fun other => ?_⟩
      simp only [change, isDown_set]
      split
      · next h => rw [← h, same]
      · rfl
    · exact .inl ⟨key, by simp [change, same], Bool.eq_not.mpr (Ne.symm same), rfl⟩

namespace Interpreter

/-- No cycle changes which keys are down. -/
theorem cycle_keys (s : Interpreter) (random : UInt8) : (s.cycle random).1.keys = s.keys := by
  unfold cycle
  split
  · exact (s.fetched.execute_effect random _).keys
  · rfl

private theorem runBatch_keys (s : Interpreter) (bytes : List UInt8) :
    (Machine.runBatch s bytes).machine.keys = s.keys ∧
      (Machine.runBatch s bytes).journal.calls = [] := by
  induction bytes generalizing s with
  | nil => exact ⟨rfl, rfl⟩
  | cons byte bytes ih =>
    obtain ⟨hkeys, hcalls⟩ := ih (s.cycle byte).1
    refine ⟨hkeys.trans (s.cycle_keys byte), ?_⟩
    change Journal.calls (Journal.ofNotices _ ++ _) = []
    rw [Journal.calls_append, Journal.calls_ofNotices]
    exact hcalls

private theorem tick_keys {D S : Type} [Display D] [Sound S] {s : Scheduler} {machine : Interpreter}
    {sinks : Sinks D S} {dice : Dice} {ticked : Scheduler.Ticked Interpreter D S}
    (h : s.tick machine sinks dice = .ok ticked) :
    ticked.machine.keys = machine.keys ∧ ticked.journal.calls = [] := by
  obtain ⟨hkeys, hcalls⟩ := runBatch_keys machine (dice.first s.cyclesPerTick)
  constructor
  · rw [Scheduler.tick_machine h]
    exact hkeys
  · rw [Scheduler.tick_calls h, hcalls]
    rfl

end Interpreter

namespace CallLog

/-- The states that one machine was told to put one key into, oldest first. -/
def turns (log : CallLog) (machine : Nat) (key : Key) : List Bool :=
  ((log.keys machine).filter fun change => change.1 == key).map Prod.snd

private theorem turns_append (log later : CallLog) (machine : Nat) (key : Key) :
    (log ++ later : CallLog).turns machine key = log.turns machine key ++ later.turns machine key := by
  simp [turns, keys, callsOn]

private theorem turns_setKey (number machine : Nat) (key other : Key) (pressed : Bool) :
    turns [(number, .setKey key pressed)] machine other =
      if number = machine ∧ key = other then [pressed] else [] := by
  by_cases hnumber : number = machine <;> by_cases hkey : key = other <;>
    simp [turns, keys, callsOn, hnumber, hkey]

private theorem turns_concat_setKey (log : CallLog) (number machine : Nat) (key other : Key)
    (pressed : Bool) :
    (log ++ [(number, .setKey key pressed)] : CallLog).turns machine other =
      if number = machine ∧ key = other then log.turns machine other ++ [pressed]
      else log.turns machine other := by
  rw [turns_append, turns_setKey]
  split
  · rfl
  · rw [List.append_nil]

end CallLog

/-- Pressed, released and so on in turn, beginning with a key that is up. -/
def Alternates (turns : List Bool) : Prop := (false :: turns).IsChain (· ≠ ·)

def downAfter (turns : List Bool) : Bool := turns.getLast?.getD false

/-- The last turn decides whether a key is down. -/
theorem downAfter_concat (turns : List Bool) (turn : Bool) : downAfter (turns ++ [turn]) = turn := by
  rw [downAfter, List.getLast?_concat, Option.getD_some]

/-- A key that is turned from the state it is in goes on in turn. -/
theorem Alternates.concat {turns : List Bool} (h : Alternates turns) :
    Alternates (turns ++ [!downAfter turns]) := by
  rw [Alternates, ← List.cons_append]
  refine List.IsChain.append h (.singleton _) fun last hlast next hnext => ?_
  rw [List.getLast?_cons, Option.mem_some] at hlast
  rw [List.head?_cons, Option.mem_some] at hnext
  rw [← hlast, ← hnext]
  exact (Bool.eq_not_self _).mp

namespace Overheard
variable {D S : Type} [Display D] [Sound S]

private theorem tick_keys {o : Overheard Interpreter} {s : Scheduler} {sinks : Sinks D S} {dice : Dice}
    {ticked : Scheduler.Ticked (Overheard Interpreter) D S} (h : s.tick o sinks dice = .ok ticked) :
    ticked.machine.number = o.number ∧ ticked.machine.machine.keys = o.machine.keys ∧
      ticked.journal.calls = [] := by
  obtain ⟨plain, ran, rfl⟩ := tick_inversion h
  exact ⟨rfl, Interpreter.tick_keys ran⟩

private theorem load_keys {o loads : Overheard Interpreter} {program : List UInt8} {told : Journal}
    (h : Machine.load o program = .ok (loads, told)) :
    loads.number = o.number ∧ loads.machine.keys = .released ∧ told = [] := by
  change Except.map _ (Except.map _ (Except.map _ (Memory.initial.load program))) = _ at h
  cases hmemory : Memory.initial.load program with
  | error e =>
    rw [hmemory] at h
    cases h
  | ok memory =>
    rw [hmemory] at h
    cases h
    exact ⟨rfl, rfl, rfl⟩

end Overheard

namespace SessionManager

section
variable {M R D S : Type} [Machine M] [RefreshHost R] [Display D] [Sound S]

private theorem Step.keys_released {m m' : SessionManager M} {refresh refresh' : R} {e : Event}
    {told : Journal} (step : Step D S m refresh e told m' refresh')
    (change : e.activation.isSome = true ∨ e = .tornDown) : m'.keys = .released := by
  obtain activation | rfl := change
  · obtain ⟨machine, rom, handle, rfl⟩ := step.begins activation
    rfl
  · cases step
    rfl

end

variable {R D S : Type} [RefreshHost R] [Display D] [Sound S]
variable {m m' : SessionManager (Overheard Interpreter)} {calls : CallLog}

/-- What holds throughout a run of overheard interpreters: the keys agree, and those that are down are
the ones that the running machine was last told to press. -/
structure InTurn (m : SessionManager (Overheard Interpreter)) (calls : CallLog) : Prop where
  agree : ∀ s, m.session = some s → ∀ key, s.machine.machine.keys.isDown key = m.keys.isDown key
  alternates : ∀ machine key, Alternates (calls.turns machine key)
  told : ∀ s, m.session = some s → s.machine.number ≤ m.built ∧
    ∀ key, m.keys.isDown key = downAfter (calls.turns s.machine.number key)
  unbuilt : ∀ machine, m.built < machine → ∀ key, calls.turns machine key = []

private theorem InTurn.quiet (h : m.InTurn calls) (built : m.built ≤ m'.built)
    (goes_on : ∀ s', m'.session = some s' → ∃ s, m.session = some s ∧
      s'.machine.number = s.machine.number ∧ s'.machine.machine.keys = s.machine.machine.keys ∧
      ∀ key, m'.keys.isDown key = m.keys.isDown key) : m'.InTurn calls where
  agree s' hs' key := by
    obtain ⟨s, hs, -, hkeys, hdown⟩ := goes_on s' hs'
    rw [hkeys, hdown, h.agree s hs]
  alternates := h.alternates
  told s' hs' := by
    obtain ⟨s, hs, hnumber, -, hdown⟩ := goes_on s' hs'
    obtain ⟨hbuilt, htold⟩ := h.told s hs
    rw [hnumber]
    exact ⟨hbuilt.trans built, fun key => (hdown key).trans (htold key)⟩
  unbuilt machine hmachine := h.unbuilt machine (Nat.lt_of_le_of_lt built hmachine)

private theorem InTurn.activated (h : m.InTurn calls) {machine : Overheard Interpreter} {rom : Rom}
    (number : machine.number = m.built + 1) (released : machine.machine.keys = .released)
    (handle : TickHandle) : (m.begun machine rom handle).InTurn calls where
  agree s hs key := by
    cases hs
    rw [released]
    rfl
  alternates := h.alternates
  told s hs := by
    cases hs
    refine ⟨Nat.le_of_eq number, fun key => ?_⟩
    -- nothing was told to a machine before it was built, so for it all keys are up
    rw [h.unbuilt machine.number (Nat.lt_of_succ_le (Nat.le_of_eq number.symm))]
    exact KeyTable.isDown_released key
  unbuilt other hother := h.unbuilt other (Nat.lt_of_succ_lt hother)

private theorem InTurn.advanced (h : m.InTurn calls) {token : Token}
    {session : Session (Overheard Interpreter)} {sinks : Sinks D S} {dice : Dice}
    {ticked : Scheduler.Ticked (Overheard Interpreter) D S} (live : m.live? token = some session)
    (ran : session.scheduler.tick session.machine sinks dice = .ok ticked)
    (pending : Option TickHandle) :
    (m.advanced session ticked pending).InTurn (calls ++ ticked.journal.calls) := by
  obtain ⟨hnumber, hkeys, hcalls⟩ := Overheard.tick_keys ran
  rw [hcalls, List.append_nil]
  refine h.quiet (Nat.le_refl _) fun s hs => ?_
  cases hs
  exact ⟨session, (live?_eq_some_iff.mp live).1, hnumber, hkeys, fun _ => rfl⟩

private theorem InTurn.forwarded (h : m.InTurn calls) {c : Char} {pressed : Bool} {key : Key}
    {session : Session (Overheard Interpreter)}
    (changed : (m.keys.hostKey c pressed).1 = some key) (running : m.session = some session) :
    let machine := { session.machine with machine := session.machine.machine.setKey key pressed }
    { m with
      keys := (m.keys.hostKey c pressed).2
      session := some { session with machine } : SessionManager (Overheard Interpreter) }.InTurn
        (calls ++ [(session.machine.number, .setKey key pressed)]) := by
  obtain ⟨hbuilt, htold⟩ := h.told session running
  obtain ⟨other, hother, hpressed, hkeys⟩ | ⟨hnone, -⟩ := m.keys.hostKey_cases c pressed
  · obtain rfl := Option.some.inj (hother.symm.trans changed)
    -- the table says what the machine was told last, so a change of the table is the other turn
    rw [htold] at hpressed
    constructor
    case agree =>
      intro s hs key
      cases hs
      change (session.machine.machine.keys.set other pressed).isDown key = _
      rw [hkeys, KeyTable.isDown_set, KeyTable.isDown_set, h.agree session running]
    case alternates =>
      intro machine key
      rw [CallLog.turns_concat_setKey]
      split
      · next same =>
        obtain ⟨rfl, rfl⟩ := same
        rw [hpressed]
        exact (h.alternates _ _).concat
      · exact h.alternates machine key
    case told =>
      intro s hs
      cases hs
      refine ⟨hbuilt, fun key => ?_⟩
      rw [hkeys, KeyTable.isDown_set, CallLog.turns_concat_setKey]
      by_cases same : other = key
      · rw [if_pos same, if_pos ⟨rfl, same⟩, downAfter_concat]
      · rw [if_neg same, if_neg fun both => same both.2, htold]
    case unbuilt =>
      intro machine hmachine key
      have hne : session.machine.number ≠ machine := Nat.ne_of_lt (Nat.lt_of_le_of_lt hbuilt hmachine)
      rw [CallLog.turns_concat_setKey, if_neg fun both => hne both.1, h.unbuilt machine hmachine]
  · rw [hnone] at changed
    cases changed

private theorem InTurn.step {refresh refresh' : R} {e : Event} {told : Journal} (h : m.InTurn calls)
    (numbered : ∀ k, (m.factory k).number = k) (step : Step D S m refresh e told m' refresh') :
    m'.InTurn (calls ++ told.calls) := by
  cases step with
  | beginLoad =>
    rw [Journal.calls_nil, List.append_nil]
    exact h.quiet (Nat.le_refl _) fun s hs => ⟨s, hs, rfl, rfl, fun _ => rfl⟩
  | completeLoad ticket arrived done hdone =>
    cases completeLoad_completion hdone with
    | superseded =>
      rw [Journal.calls_ofNotices, List.append_nil]
      exact h
    | missing =>
      rw [Journal.calls_nil, List.append_nil]
      exact h.quiet (Nat.le_refl _) fun s hs => ⟨s, hs, rfl, rfl, fun _ => rfl⟩
    | refused =>
      rw [Journal.calls_nil, List.append_nil]
      exact h.quiet (Nat.le_succ _) fun s hs => ⟨s, hs, rfl, rfl, fun _ => rfl⟩
    | activated rom machine loaded notices wanted came taken =>
      obtain ⟨hnumber, hkeys, rfl⟩ := Overheard.load_keys taken
      rw [List.nil_append, Journal.calls_ofNotices, List.append_nil]
      exact h.activated (hnumber.trans (numbered _)) hkeys _
  | onTick token sinks dice delivered hdelivered =>
    cases onTick_delivery hdelivered with
    | stale =>
      rw [Journal.calls_ofNotices, List.append_nil]
      exact h
    | failed session ticked e live ran => exact h.advanced live ran _
    | ran session ticked outcome live ran => exact h.advanced live ran _
  | keyEvent c pressed after hafter =>
    cases keyEvent_keying hafter with
    | kept unchanged =>
      rw [Journal.calls_nil, List.append_nil]
      refine h.quiet (Nat.le_refl _) fun s hs => ⟨s, hs, rfl, rfl, ?_⟩
      have hnone := unchanged.resolve_right (by rw [show m.session = some s from hs]; nofun)
      obtain ⟨key, hkey, -⟩ | ⟨-, hdown⟩ := m.keys.hostKey_cases c pressed
      · rw [hnone] at hkey
        cases hkey
      · exact hdown
    | forwarded key session changed running => exact h.forwarded changed running
  | teardown =>
    rw [Journal.calls_ofNotices, List.append_nil]
    exact h.quiet (Nat.le_refl _) fun s hs => nomatch hs

variable {factory : Nat → Interpreter} {settings : SchedulerSettings} {keys : KeyTable}

private theorem InTurn.run {events : List Event} {journal : Journal}
    (run : Run R D S (new (fun k => (⟨k, factory k⟩ : Overheard Interpreter)) settings keys) m events
      journal) : m.InTurn journal.calls := by
  induction run with
  | start => exact {
      agree := fun _ hs => nomatch hs
      alternates := fun _ _ => .singleton _
      told := fun _ hs => nomatch hs
      unbuilt := fun _ _ _ => rfl }
  | step run step ih =>
    rw [Journal.calls_append]
    exact ih.step (fun k => by rw [run.fixed.1]; rfl) step

/-- Over every run of interpreters the keys of the running machine are those of the console, slot by
slot, and the move that begins a session or ends the last one leaves them all up. The run is also one of
overheard machines. In every such run each machine is told of each key in turn that it is down and that
it is up, beginning with down. -/
theorem keys_agree {m : SessionManager Interpreter} {events : List Event} {journal : Journal}
    (run : Run R D S (new factory settings keys) m events journal) :
    let overheard : Nat → Overheard Interpreter := fun k => ⟨k, factory k⟩
    (∀ s, m.session = some s → ∀ key, s.machine.keys.isDown key = m.keys.isDown key) ∧
    (∀ (m' : SessionManager Interpreter) (refresh refresh' : R) (e : Event) (told : Journal),
      Step D S m refresh e told m' refresh' → e.activation.isSome = true ∨ e = .tornDown →
        ∀ key, m'.keys.isDown key = false) ∧
    (∃ heard told, Run R D S (new overheard settings keys) heard events told ∧ heard.unheard = m ∧
      told.notices = journal.notices) ∧
    ∀ heard others told, Run R D S (new overheard settings keys) heard others told →
      ∀ machine key, Alternates (told.calls.turns machine key) := by
  intro overheard
  obtain ⟨heard, told, hrun, rfl, hnotices⟩ := run.overheard
  refine ⟨?_, ?_, ⟨heard, told, hrun, rfl, hnotices⟩, ?_⟩
  · intro s hs key
    obtain ⟨s', hs', rfl⟩ := Option.map_eq_some_iff.mp hs
    exact (InTurn.run hrun).agree s' hs' key
  · intro m' refresh refresh' e told step change key
    rw [step.keys_released change]
    exact KeyTable.isDown_released key
  · intro other others told' hrun'
    exact (InTurn.run hrun').alternates

/-- A key is pressed before the first session, twice in it before it is released, and is held when the
second session begins. -/
theorem keys_agree_of_swap :
    let factory : Nat → Interpreter := fun _ => .initial
    let overheard : Nat → Overheard Interpreter := fun k => ⟨k, factory k⟩
    ∃ m events journal,
      Run RefreshQueue RecordingDisplay Mute (new factory {}) m events journal ∧
      m.session.isSome = true ∧ m.keys.isDown 0x5 = true ∧
      (∀ s, m.session = some s → ∀ key, s.machine.keys.isDown key = m.keys.isDown key) ∧
      ∃ heard others told, Run RefreshQueue RecordingDisplay Mute (new overheard {}) heard others told ∧
        told.calls.turns 1 0x4 = [true, false, true] ∧
        ∀ machine key, Alternates (told.calls.turns machine key) := by
  intro factory overheard
  have keyed {M : Type} [Machine M] {m₀ m : SessionManager M} {events : List Event} {journal : Journal}
      (c : Char) (pressed : Bool) (run : Run RefreshQueue RecordingDisplay Mute m₀ m events journal) :=
    run.step (.keyEvent c pressed _ rfl : Step RecordingDisplay Mute m ({} : RefreshQueue) _ _ _ _)
  have loaded {M : Type} [Machine M] {m₀ m : SessionManager M} {events : List Event} {journal : Journal}
      (rom : Rom) (run : Run RefreshQueue RecordingDisplay Mute m₀ m events journal) :=
    (run.step (.beginLoad : Step RecordingDisplay Mute m ({} : RefreshQueue) _ _ _ _)).step
      (.completeLoad m.beginLoad.1 (.ok rom) _ rfl : Step RecordingDisplay Mute _ {} _ _ _ _)
  have played {M : Type} [Machine M] (factory : Nat → M) :=
    have idle := keyed 'q' true
      (Run.start : Run RefreshQueue RecordingDisplay Mute (new factory {}) _ _ _)
    have first := keyed 'q' true (loaded ⟨"maze", [0x12, 0x00], none⟩ idle)
    have second := keyed 'q' true (keyed 'Q' false (keyed 'Q' true first))
    keyed 'w' true (loaded ⟨"pong", [0xA2, 0x1E], none⟩ second)
  have run := played factory
  obtain ⟨hagree, -, -, halternates⟩ := keys_agree run
  exact ⟨_, _, _, run, by decide +kernel, by decide +kernel, hagree, _, _, _, played overheard,
    by decide +kernel, halternates _ _ _ (played overheard)⟩

end SessionManager

end Chip8Console
