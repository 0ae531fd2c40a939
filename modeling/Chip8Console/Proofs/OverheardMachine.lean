import Chip8Console.Proofs.SessionMoves

/-!
Machines whose key changes are put down in the journal. Nothing else is different with them: each run of
plain machines is also one of overheard machines, up to what is put down.
-/
namespace Chip8Console

/-- A machine with the number under which the journal keeps its key changes. -/
structure Overheard (M : Type) where
  number : Nat
  machine : M

namespace Overheard
variable {M D S : Type} [Machine M] [Display D] [Sound S]

instance : Machine (Overheard M) where
  cycle o random :=
    let (machine, told) := Machine.cycle o.machine random
    ({ o with machine }, told)
  pendingRedraw o := Machine.pendingRedraw o.machine
  tickTimers o :=
    let (beep, machine, told) := Machine.tickTimers o.machine
    (beep, { o with machine }, told)
  frame o := Machine.frame o.machine
  load o program :=
    (Machine.load o.machine program).map fun (machine, told) => ({ o with machine }, told)
  setKey o key pressed :=
    let (machine, told) := Machine.setKey o.machine key pressed
    ({ o with machine }, .call o.number (.setKey key pressed) :: told)

private theorem runBatch_eq (o : Overheard M) (bytes : List UInt8) :
    let batch := Machine.runBatch o.machine bytes
    Machine.runBatch o bytes = ⟨{ o with machine := batch.machine }, batch.redraw, batch.journal⟩ := by
  induction bytes generalizing o with
  | nil => rfl
  | cons byte bytes ih =>
    simp only [Machine.runBatch, ih]
    rfl

private theorem tick_eq (o : Overheard M) (s : Scheduler) (sinks : Sinks D S) (dice : Dice) :
    s.tick o sinks dice = (s.tick o.machine sinks dice).map fun ticked =>
      { ticked with machine := { o with machine := ticked.machine } } := by
  simp only [Scheduler.tick, runBatch_eq]
  let timed := Machine.tickTimers (Machine.runBatch o.machine (dice.first s.cyclesPerTick)).machine
  -- only the repaint can meet a fault, and it sees the picture alone
  split
  · change Display.showFrame sinks.display (Machine.frame timed.2.1) s.scale >>= _ =
      Except.map _ (Display.showFrame sinks.display (Machine.frame timed.2.1) s.scale >>= _)
    cases Display.showFrame sinks.display (Machine.frame timed.2.1) s.scale <;> rfl
  · rfl

/-- A tick of an overheard machine is one of the machine itself. -/
theorem tick_inversion {o : Overheard M} {s : Scheduler} {sinks : Sinks D S} {dice : Dice}
    {ticked : Scheduler.Ticked (Overheard M) D S} (h : s.tick o sinks dice = .ok ticked) :
    ∃ plain, s.tick o.machine sinks dice = .ok plain ∧
      ticked = { plain with machine := { o with machine := plain.machine } } := by
  rw [tick_eq] at h
  cases ran : s.tick o.machine sinks dice with
  | error fault =>
    rw [ran] at h
    cases h
  | ok plain =>
    rw [ran] at h
    cases h
    exact ⟨plain, rfl, rfl⟩

end Overheard

variable {M R D S : Type}

def Session.unheard (s : Session (Overheard M)) : Session M where
  token := s.token
  machine := s.machine.machine
  scheduler := s.scheduler
  rom := s.rom
  pending := s.pending

namespace SessionManager

def unheard (m : SessionManager (Overheard M)) : SessionManager M where
  factory k := (m.factory k).machine
  settings := m.settings
  built := m.built
  tokens := m.tokens
  keys := m.keys
  session := m.session.map Session.unheard
  awaited := m.awaited
  selections := m.selections

def Completed.unheard (done : Completed (Overheard M) R) : Completed M R :=
  ⟨done.manager.unheard, done.refresh, done.result, done.journal⟩

def Delivered.unheard (delivered : Delivered (Overheard M) R D S) : Delivered M R D S :=
  ⟨delivered.manager.unheard, delivered.refresh, delivered.sinks, delivered.result, delivered.journal⟩

variable [Machine M] [RefreshHost R] [Display D] [Sound S] {m : SessionManager (Overheard M)}

omit [Machine M] in
private theorem retire_unheard (m : SessionManager (Overheard M)) (refresh : R) :
    m.unheard.retire refresh = m.retire refresh := by
  simp only [retire, unheard]
  cases m.session <;> rfl

omit [Machine M] in
private theorem activate_unheard (m : SessionManager (Overheard M)) (refresh : R) (machine : Overheard M)
    (rom : Rom) : m.unheard.activate refresh machine.machine rom =
      (m.activate refresh machine rom).unheard := by
  simp only [activate, retire_unheard]
  rfl

private theorem completeLoad_unheard (m : SessionManager (Overheard M)) (ticket : LoadTicket)
    (arrived : Except ConsoleError Rom) (refresh : R) :
    m.unheard.completeLoad ticket arrived refresh = (m.completeLoad ticket arrived refresh).unheard := by
  by_cases wanted : m.awaited = some ticket
  · have wanted' : m.unheard.awaited = some ticket := wanted
    cases arrived with
    | error e => rw [completeLoad_missing e refresh wanted, completeLoad_missing e refresh wanted']; rfl
    | ok rom =>
      have hload : Machine.load (m.factory (m.built + 1)) rom.bytes =
          (Machine.load (m.unheard.factory (m.unheard.built + 1)) rom.bytes).map
            fun (machine, told) => ({ m.factory (m.built + 1) with machine }, told) := rfl
      cases taken : Machine.load (m.unheard.factory (m.unheard.built + 1)) rom.bytes with
      | error e =>
        rw [taken] at hload
        rw [completeLoad_refused refresh wanted hload, completeLoad_refused refresh wanted' taken]
        rfl
      | ok loads =>
        rw [taken] at hload
        have hactivate := activate_unheard { m with awaited := none, built := m.built + 1 } refresh
          { m.factory (m.built + 1) with machine := loads.1 } rom
        rw [completeLoad_taken refresh wanted hload, completeLoad_taken refresh wanted' taken]
        exact congrArg (fun done : Completed M R => { done with journal := loads.2 ++ done.journal }) hactivate
  · rw [completeLoad_superseded arrived refresh wanted,
      completeLoad_superseded arrived refresh (m := m.unheard) wanted]
    rfl

private theorem onTick_unheard (m : SessionManager (Overheard M)) (token : Token) (refresh : R)
    (sinks : Sinks D S) (dice : Dice) : m.unheard.onTick token refresh sinks dice =
      (m.onTick token refresh sinks dice).map Delivered.unheard := by
  have hlive : m.unheard.live? token = (m.live? token).map Session.unheard := Option.filter_map ..
  simp only [onTick, hlive]
  cases m.live? token with
  | none => rfl
  | some session =>
    simp only [Option.map_some, Overheard.tick_eq, Session.unheard]
    cases session.scheduler.tick session.machine.machine sinks dice with
    | error fault => rfl
    | ok ticked =>
      simp only [Except.map]
      cases ticked.result <;> rfl

private theorem keyEvent_unheard (m : SessionManager (Overheard M)) (c : Char) (pressed : Bool) :
    (m.unheard.keyEvent c pressed).1 = (m.keyEvent c pressed).1.unheard ∧
      (m.unheard.keyEvent c pressed).2.notices = (m.keyEvent c pressed).2.notices := by
  simp only [keyEvent, unheard]
  cases (m.keys.hostKey c pressed).1 with
  | none => exact ⟨rfl, rfl⟩
  | some key => cases m.session <;> exact ⟨rfl, rfl⟩

omit [Machine M] in
private theorem teardown_unheard (m : SessionManager (Overheard M)) (refresh : R) :
    m.unheard.teardown refresh =
    ((m.teardown refresh).1.unheard, (m.teardown refresh).2) := by
  simp only [teardown, unheard]
  cases m.session <;> rfl

/-- Whatever a manager of plain machines does, one of the same machines overheard does too. -/
theorem Step.overheard {m' : SessionManager M} {refresh refresh' : R} {e : Event} {told : Journal}
    (step : Step D S m.unheard refresh e told m' refresh') :
    ∃ heard told', Step D S m refresh e told' heard refresh' ∧ heard.unheard = m' ∧
      told'.notices = told.notices := by
  cases step with
  | beginLoad => exact ⟨m.beginLoad.2, [], .beginLoad, rfl, rfl⟩
  | completeLoad ticket arrived done h =>
    rw [completeLoad_unheard] at h
    subst h
    exact ⟨_, _, .completeLoad ticket arrived _ rfl, rfl, rfl⟩
  | onTick token sinks dice delivered h =>
    rw [onTick_unheard] at h
    cases hdelivered : m.onTick token refresh sinks dice with
    | error fault =>
      rw [hdelivered] at h
      cases h
    | ok delivered' =>
      rw [hdelivered] at h
      cases h
      exact ⟨_, _, .onTick token sinks dice delivered' hdelivered, rfl, rfl⟩
  | keyEvent c pressed after h =>
    subst h
    obtain ⟨hafter, htold⟩ := m.keyEvent_unheard c pressed
    exact ⟨_, _, .keyEvent c pressed _ rfl, hafter.symm, htold.symm⟩
  | teardown =>
    rw [teardown_unheard]
    exact ⟨_, _, .teardown, rfl, rfl⟩

/-- Every run of a manager is that of a manager whose machines are overheard, with the same events. -/
theorem Run.overheard {factory : Nat → M} {settings : SchedulerSettings} {keys : KeyTable}
    {m : SessionManager M} {events : List Event} {journal : Journal}
    (run : Run R D S (new factory settings keys) m events journal) :
    ∃ heard told,
      Run R D S (new (fun k => (⟨k, factory k⟩ : Overheard M)) settings keys) heard events told ∧
        heard.unheard = m ∧ told.notices = journal.notices := by
  induction run with
  | start => exact ⟨_, [], .start, rfl, rfl⟩
  | step run step ih =>
    obtain ⟨heard, told, hrun, rfl, hnotices⟩ := ih
    obtain ⟨heard', told', hstep, hunheard, hnotices'⟩ := step.overheard
    refine ⟨heard', _, hrun.step hstep, hunheard, ?_⟩
    rw [Journal.notices_append, Journal.notices_append, hnotices, hnotices']

end SessionManager

end Chip8Console
