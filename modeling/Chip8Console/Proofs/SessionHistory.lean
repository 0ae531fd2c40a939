import Chip8Console.Machine.CallLog
import Chip8Console.Proofs.ConsoleMoves

/-!
What the machine of a session has been through since it took its program: every cycle and every step of
its timers belongs to a tick of the session, and all that comes between are changes of keys.
-/
namespace Chip8Console

/-- The calls that bring one state of a machine to another. -/
inductive Machine.Reaches {M : Type} [Machine M] (start : M) : List Call → M → Prop
  | refl : Reaches start [] start
  | cycle {calls : List Call} {m : M} (reaches : Reaches start calls m) (random : UInt8) :
      Reaches start (calls ++ [.cycle]) (Machine.cycle m random).1
  | timers {calls : List Call} {m : M} (reaches : Reaches start calls m) :
      Reaches start (calls ++ [.timers]) (Machine.tickTimers m).2.1
  | setKey {calls : List Call} {m : M} (reaches : Reaches start calls m) (key : Key) (pressed : Bool) :
      Reaches start (calls ++ [.setKey key pressed]) (Machine.setKey m key pressed).1

section
variable {M D S : Type} [Machine M] [Display D] [Sound S]

/-- Calls that follow each other lead from the first state to the last. -/
theorem Machine.Reaches.trans {start middle last : M} {calls later : List Call}
    (first : Reaches start calls middle) (second : Reaches middle later last) :
    Reaches start (calls ++ later) last := by
  induction second with
  | refl =>
    rw [List.append_nil]
    exact first
  | cycle _ random ih =>
    rw [← List.append_assoc]
    exact ih.cycle random
  | timers _ ih =>
    rw [← List.append_assoc]
    exact ih.timers
  | setKey _ key pressed ih =>
    rw [← List.append_assoc]
    exact ih.setKey key pressed

private theorem Machine.reaches_batch (m : M) (bytes : List UInt8) :
    Reaches m (List.replicate bytes.length .cycle) (runBatch m bytes).machine := by
  induction bytes generalizing m with
  | nil => exact .refl
  | cons byte bytes ih => exact (Reaches.refl.cycle byte).trans (ih _)

private theorem Scheduler.tick_reaches {s : Scheduler} {machine : M} {sinks : Sinks D S} {dice : Dice}
    {ticked : Ticked M D S} (h : s.tick machine sinks dice = .ok ticked) :
    Machine.Reaches machine (List.replicate s.cyclesPerTick .cycle ++ [.timers]) ticked.machine := by
  have batch := Machine.reaches_batch machine (dice.first s.cyclesPerTick)
  rw [Dice.first, List.length_map, List.length_range] at batch
  rw [tick_machine h]
  exact batch.timers

end

namespace Session
variable {M D S : Type} [Machine M] [Display D] [Sound S]

/-- The session has run so many ticks: its machine took a program and was asked since for the cycles and
the timers of these ticks, and for no others. -/
structure HasRun (factory : Nat → M) (settings : SchedulerSettings) (s : Session M) (n : Nat) :
    Prop where
  ticks : s.scheduler.ticks = n
  batch : s.scheduler.cyclesPerTick = max settings.cyclesPerTick 1
  cycles : s.scheduler.cycles = n * max settings.cyclesPerTick 1
  machine : ∃ (k : Nat) (rom : Rom) (loaded : M) (told : Journal) (calls : List Call),
    Machine.load (factory k) rom.bytes = .ok (loaded, told) ∧
    Machine.Reaches loaded calls s.machine ∧
    calls.count .cycle = n * max settings.cyclesPerTick 1 ∧ calls.count .timers = n

variable {factory : Nat → M} {settings : SchedulerSettings} {s : Session M} {n : Nat}

/-- A tick that goes through is one more in the history of its session. -/
theorem HasRun.ticked (h : HasRun factory settings s n) {sinks : Sinks D S} {dice : Dice}
    {ticked : Scheduler.Ticked M D S} (ran : s.scheduler.tick s.machine sinks dice = .ok ticked)
    (pending : Option TickHandle) :
    HasRun factory settings
      { s with machine := ticked.machine, scheduler := ticked.scheduler, pending } (n + 1) := by
  have scheduler := Scheduler.tick_scheduler ran
  obtain ⟨k, rom, loaded, told, calls, hload, reaches, hcycles, htimers⟩ := h.machine
  constructor
  case ticks =>
    simp only [scheduler, Scheduler.counted, h.ticks]
  case batch =>
    simp only [scheduler, Scheduler.counted, h.batch]
  case cycles =>
    simp only [scheduler, Scheduler.counted, h.cycles, h.batch, Nat.add_mul, Nat.one_mul]
  case machine =>
    refine ⟨k, rom, loaded, told, _, hload, reaches.trans (Scheduler.tick_reaches ran), ?_, ?_⟩
    · rw [List.count_append, hcycles, h.batch]
      simp [Nat.add_mul]
    · rw [List.count_append, htimers]
      simp [List.count_replicate]

/-- The same session, of which at most keys have changed since. -/
structure Keyed (s s' : Session M) : Prop where
  same : s' = { s with machine := s'.machine }
  calls : ∃ calls, Machine.Reaches s.machine calls s'.machine ∧
    calls.count .cycle = 0 ∧ calls.count .timers = 0

theorem Keyed.token {s s' : Session M} (keyed : Keyed s s') : s'.token = s.token := by
  rw [keyed.same]

private theorem Keyed.refl (s : Session M) : Keyed s s := ⟨rfl, [], .refl, rfl, rfl⟩

private theorem Keyed.trans {s s' s'' : Session M} (first : Keyed s s') (second : Keyed s' s'') :
    Keyed s s'' := by
  obtain ⟨same, calls, reaches, hcycles, htimers⟩ := first
  obtain ⟨same', calls', reaches', hcycles', htimers'⟩ := second
  refine ⟨?_, calls ++ calls', reaches.trans reaches', ?_, ?_⟩
  · rw [same', same]
  · rw [List.count_append, hcycles, hcycles']
  · rw [List.count_append, htimers, htimers']

/-- A change of a key adds nothing to the ticks that a session has run. -/
theorem HasRun.keyed {s' : Session M} (h : HasRun factory settings s n) (keyed : Keyed s s') :
    HasRun factory settings s' n := by
  obtain ⟨same, later, reaches', hcycles', htimers'⟩ := keyed
  obtain ⟨k, rom, loaded, told, calls, hload, reaches, hcycles, htimers⟩ := h.machine
  refine ⟨?_, ?_, ?_, k, rom, loaded, told, _, hload, reaches.trans reaches', ?_, ?_⟩
  · rw [same]
    exact h.ticks
  · rw [same]
    exact h.batch
  · rw [same]
    exact h.cycles
  · rw [List.count_append, hcycles, hcycles', Nat.add_zero]
  · rw [List.count_append, htimers, htimers', Nat.add_zero]

end Session

namespace SessionManager
variable {M : Type} [Machine M]

/-- A key of the host begins no session. -/
theorem keyEvent_keyed {m : SessionManager M} {c : Char} {pressed : Bool} {s' : Session M}
    (running : (m.keyEvent c pressed).1.session = some s') :
    ∃ s, m.session = some s ∧ s.Keyed s' := by
  generalize hafter : m.keyEvent c pressed = after at running
  cases keyEvent_keying hafter with
  | kept => exact ⟨s', running, .refl s'⟩
  | forwarded key session changed h =>
    cases running
    exact ⟨session, h, rfl, [.setKey key pressed], Machine.Reaches.refl.setKey key pressed, rfl, rfl⟩

/-- A session that begins has run nothing. -/
theorem begun_hasRun {m : SessionManager M} {machine : M} {rom : Rom} {told : Journal}
    (taken : Machine.load (m.factory (m.built + 1)) rom.bytes = .ok (machine, told))
    (handle : TickHandle) {s : Session M} (h : (m.begun machine rom handle).session = some s) :
    s.HasRun m.factory m.settings 0 := by
  cases h
  refine ⟨rfl, rfl, (Nat.zero_mul _).symm, _, rom, machine, told, [], taken, .refl, ?_, rfl⟩
  exact (Nat.zero_mul _).symm

end SessionManager

namespace Environment
variable {M D S : Type} [Machine M] [Display D]

private theorem handle_keyed {env : Environment M D S} {event : HostEvent} {s' : Session M}
    (running : (env.handle event).environment.sessions.session = some s') :
    ∃ s, env.sessions.session = some s ∧ s.Keyed s' := by
  cases event with
  | key c pressed => exact SessionManager.keyEvent_keyed running
  | quit => exact ⟨s', running, .refl s'⟩
  | selectSlot slot =>
    refine ⟨s', ?_, .refl s'⟩
    rw [← running]
    simp only [handle, selectSlot]
    cases env.catalog[slot]? <;> rfl

/-- Nothing that the host says begins a session. -/
theorem handleAll_keyed {env : Environment M D S} {events : List HostEvent} {s' : Session M}
    (running : (env.handleAll events).environment.sessions.session = some s') :
    ∃ s, env.sessions.session = some s ∧ s.Keyed s' := by
  induction events generalizing env with
  | nil => exact ⟨s', running, .refl s'⟩
  | cons event rest ih =>
    simp only [handleAll] at running
    cases hresult : (env.handle event).result with
    | quit =>
      rw [hresult] at running
      exact handle_keyed running
    | goOn =>
      rw [hresult] at running
      obtain ⟨middle, hmiddle, later⟩ := ih running
      obtain ⟨s, hs, first⟩ := handle_keyed hmiddle
      exact ⟨s, hs, first.trans later⟩

/-- What is done between two calls leaves the session that runs as it is, but for keys, or ends it. -/
theorem Act.keyed [Sound S] {env env' : Environment M D S} {deeds : List Deed}
    (act : Act env .listening deeds env' .listening) {s' : Session M}
    (running : env'.sessions.session = some s') : ∃ s, env.sessions.session = some s ∧ s.Keyed s' := by
  cases act with
  | select | report | work => exact ⟨s', running, .refl s'⟩
  | key c pressed => exact SessionManager.keyEvent_keyed running
  | teardown => cases running

end Environment

end Chip8Console
