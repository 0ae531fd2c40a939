import Chip8Console.Machine.Interpreter
import Chip8Console.Proofs.RigMoves
import Chip8Console.Screen.Recording

/-!
A selection that fails, put into a run of a rig. The run goes on as if it had not been made, except that
the tickets issued later are one ahead.
-/
namespace Chip8Console

/-- The ticket under its number once another was issued after the first `k`. -/
def LoadTicket.skipping (k : Nat) (ticket : LoadTicket) : LoadTicket :=
  if ticket.number ≤ k then ticket else ⟨ticket.number + 1⟩

namespace LoadTicket

private theorem skipping_of_lt {k n : Nat} (h : k < n) : skipping k ⟨n⟩ = ⟨n + 1⟩ :=
  if_neg (Nat.not_le.mpr h)

private theorem skipping_ne (k : Nat) (ticket : LoadTicket) : skipping k ticket ≠ ⟨k + 1⟩ := by
  unfold skipping
  split
  · next h =>
    rintro rfl
    exact Nat.not_succ_le_self k h
  · next h =>
    intro hh
    have : ticket.number + 1 = k + 1 := congrArg LoadTicket.number hh
    omega

private theorem skipping_injective (k : Nat) {ticket other : LoadTicket}
    (h : skipping k ticket = skipping k other) : ticket = other := by
  obtain ⟨n⟩ := ticket
  obtain ⟨n'⟩ := other
  simp only [skipping] at h
  split at h <;> split at h <;> simp only [LoadTicket.mk.injEq] at h ⊢ <;> omega

private theorem map_skipping_eq_some_iff (k : Nat) (awaited : Option LoadTicket) (ticket : LoadTicket) :
    awaited.map (skipping k) = some (skipping k ticket) ↔ awaited = some ticket := by
  rw [Option.map_eq_some_iff]
  constructor
  · rintro ⟨other, rfl, h⟩
    rw [skipping_injective k h]
  · rintro rfl
    exact ⟨ticket, rfl, rfl⟩

end LoadTicket

namespace SessionManager
variable {M R D S : Type}

def recount (m : SessionManager M) (awaited : Option LoadTicket) (selections built : Nat) :
    SessionManager M :=
  { m with awaited, selections, built }

private theorem keyEvent_recount [Machine M] (m : SessionManager M) (awaited : Option LoadTicket)
    (selections built : Nat) (c : Char) (pressed : Bool) :
    ((m.recount awaited selections built).keyEvent c pressed).1 =
      (m.keyEvent c pressed).1.recount awaited selections built := by
  simp only [keyEvent, recount]
  cases (m.keys.hostKey c pressed).1 <;> cases m.session <;> rfl

private theorem onTick_recount [Machine M] [RefreshHost R] [Display D] [Sound S] (m : SessionManager M)
    (awaited : Option LoadTicket) (selections built : Nat) (token : Token) (refresh : R)
    (sinks : Sinks D S) (dice : Dice) :
    (m.recount awaited selections built).onTick token refresh sinks dice =
      (m.onTick token refresh sinks dice).map fun delivered =>
        { delivered with manager := delivered.manager.recount awaited selections built } := by
  have hlive : (m.recount awaited selections built).live? token = m.live? token := rfl
  simp only [onTick, hlive]
  cases m.live? token with
  | none => rfl
  | some session =>
    simp only
    cases session.scheduler.tick session.machine sinks dice with
    | error fault => rfl
    | ok ticked =>
      simp only [Except.map]
      cases ticked.result <;> rfl

/-- The manager had it made another selection after the first `k`, had that failed and had so many
machines been built for it. -/
def skipping (m : SessionManager M) (k built : Nat) : SessionManager M :=
  m.recount (m.awaited.map (LoadTicket.skipping k)) (m.selections + 1) (m.built + built)

private theorem state_skipping (m : SessionManager M) (k built : Nat) :
    (m.skipping k built).state = m.state := by
  unfold skipping recount state
  cases m.awaited <;> rfl

/-- The managers have the same factory and the same account of selections and machines. -/
structure SameCounts (m m' : SessionManager M) : Prop where
  factory : m'.factory = m.factory
  awaited : m'.awaited = m.awaited
  selections : m'.selections = m.selections
  built : m'.built = m.built

private theorem SameCounts.trans {m m' m'' : SessionManager M} (h : m.SameCounts m')
    (h' : m'.SameCounts m'') :
    m.SameCounts m'' :=
  ⟨h'.factory.trans h.factory, h'.awaited.trans h.awaited, h'.selections.trans h.selections,
    h'.built.trans h.built⟩

private theorem onTick_counts [Machine M] [RefreshHost R] [Display D] [Sound S] {m : SessionManager M}
    {token : Token} {refresh : R} {sinks : Sinks D S} {dice : Dice} {delivered : Delivered M R D S}
    (h : m.onTick token refresh sinks dice = .ok delivered) : m.SameCounts delivered.manager := by
  cases onTick_delivery h <;> exact ⟨rfl, rfl, rfl, rfl⟩

private theorem keyEvent_counts [Machine M] (m : SessionManager M) (c : Char) (pressed : Bool) :
    m.SameCounts (m.keyEvent c pressed).1 := by
  generalize hafter : m.keyEvent c pressed = after
  cases keyEvent_keying hafter <;> exact ⟨rfl, rfl, rfl, rfl⟩

private theorem onTick_counted [Machine M] [RefreshHost R] [Display D] [Sound S] {m : SessionManager M}
    {f : SessionManager M → SessionManager M} {awaited : Option LoadTicket} {selections built : Nat}
    (hf : ∀ m', m.SameCounts m' → f m' = m'.recount awaited selections built) (token : Token)
    (refresh : R) (sinks : Sinks D S) (dice : Dice) :
    (f m).onTick token refresh sinks dice = (m.onTick token refresh sinks dice).map fun delivered =>
      { delivered with manager := f delivered.manager } := by
  -- a change to the account of selections and machines that depends on nothing but that account goes past a
  -- tick
  rw [hf m ⟨rfl, rfl, rfl, rfl⟩, onTick_recount]
  cases h : m.onTick token refresh sinks dice with
  | error fault => rfl
  | ok delivered =>
    simp only [Except.map, hf delivered.manager (onTick_counts h)]

private theorem keyEvent_counted [Machine M] {m : SessionManager M}
    {f : SessionManager M → SessionManager M} {awaited : Option LoadTicket} {selections built : Nat}
    (hf : ∀ m', m.SameCounts m' → f m' = m'.recount awaited selections built) (c : Char)
    (pressed : Bool) : ((f m).keyEvent c pressed).1 = f (m.keyEvent c pressed).1 := by
  rw [hf m ⟨rfl, rfl, rfl, rfl⟩, keyEvent_recount, hf _ (keyEvent_counts m c pressed)]

private theorem beginLoad_counted (m m' : SessionManager M) (h : m.SameCounts m') :
    m'.beginLoad.2 = m'.recount (some ⟨m.selections + 1⟩) (m.selections + 1) m.built := by
  rw [← h.selections, ← h.built]
  rfl

private theorem skipping_counted (m : SessionManager M) (k built : Nat) (m' : SessionManager M)
    (h : m.SameCounts m') : m'.skipping k built =
      m'.recount (m.awaited.map (LoadTicket.skipping k)) (m.selections + 1) (m.built + built) := by
  rw [← h.selections, ← h.built, ← h.awaited]
  rfl

private theorem completeLoad_skipping [Machine M] [RefreshHost R] {m : SessionManager M}
    (uniform : ∀ a b, m.factory a = m.factory b) (k built : Nat) (ticket : LoadTicket)
    (arrived : Except ConsoleError Rom) (refresh : R) :
    let done := m.completeLoad ticket arrived refresh
    let done' := (m.skipping k built).completeLoad (ticket.skipping k) arrived refresh
    done'.manager = done.manager.skipping k built ∧ done'.refresh = done.refresh ∧
      done'.result = done.result := by
  intro done done'
  by_cases wanted : m.awaited = some ticket
  · have wanted' : (m.skipping k built).awaited = some (ticket.skipping k) :=
      (LoadTicket.map_skipping_eq_some_iff k m.awaited ticket).mpr wanted
    have hmachine : (m.skipping k built).factory ((m.skipping k built).built + 1) =
        m.factory (m.built + 1) := uniform _ _
    have hbuilt : m.built + built + 1 = m.built + 1 + built := Nat.add_right_comm _ _ _
    cases arrived with
    | error e =>
      simp only [done, done', completeLoad_missing e refresh wanted,
        completeLoad_missing e refresh wanted']
      exact ⟨rfl, trivial, trivial⟩
    | ok rom =>
      cases hload : Machine.load (m.factory (m.built + 1)) rom.bytes with
      | error e =>
        simp only [done, done', completeLoad_refused refresh wanted hload,
          completeLoad_refused refresh wanted' ((congrArg (Machine.load · _) hmachine).trans hload)]
        exact ⟨congrArg (m.recount none (m.selections + 1)) hbuilt, trivial, trivial⟩
      | ok taken =>
        obtain ⟨hmanager, hrefresh, hresult⟩ := completeLoad_begun refresh wanted hload
        obtain ⟨hmanager', hrefresh', hresult'⟩ := completeLoad_begun refresh wanted'
          ((congrArg (Machine.load · _) hmachine).trans hload)
        simp only [done, done', hmanager, hrefresh, hresult, hmanager', hrefresh', hresult']
        exact ⟨congrArg ((m.begun _ rom _).recount none (m.selections + 1)) hbuilt, rfl, rfl⟩
  · have unwanted : (m.skipping k built).awaited ≠ some (ticket.skipping k) :=
      mt (LoadTicket.map_skipping_eq_some_iff k m.awaited ticket).mp wanted
    simp only [done, done', completeLoad_superseded arrived refresh wanted,
      completeLoad_superseded arrived refresh unwanted, and_self]

end SessionManager

namespace Rig
variable {M D S : Type}

inductive Move where
  | beginLoad
  | completeLoad (ticket : LoadTicket) (arrived : Except ConsoleError Rom)
  | fire
  | onTick (token : Token) (dice : Dice)
  | keyEvent (c : Char) (pressed : Bool)
  | teardown

inductive Reply where
  | selected (ticket : LoadTicket)
  | completed (result : Except ConsoleError (Option Token))
  | fired (due : List Token)
  | ticked (result : Except ConsoleError TickStatus)
  | done

def Move.isQuiet : Move → Bool
  | beginLoad | teardown => false
  | _ => true

/-- The move with its ticket, if it has one, under the number that it has once another was issued. -/
def Move.skipping (k : Nat) : Move → Move
  | completeLoad ticket arrived => completeLoad (ticket.skipping k) arrived
  | move => move

/-- The reply with its ticket, if it has one, under the number that it has once another was issued. -/
def Reply.skipping (k : Nat) : Reply → Reply
  | selected ticket => selected (ticket.skipping k)
  | reply => reply

def selecting (rig : Rig M D S) : Rig M D S := { rig with manager := rig.manager.beginLoad.2 }

/-- The rig had its manager made another selection after the first `k`, had that failed and had so many
machines been built for it. -/
def skipping (rig : Rig M D S) (k built : Nat) : Rig M D S :=
  { rig with manager := rig.manager.skipping k built }

variable [Machine M] [Display D] [Sound S]

def move (rig : Rig M D S) : Move → Except ArithmeticFault (Reply × Rig M D S)
  | .beginLoad => .ok (.selected rig.manager.beginLoad.1, rig.selecting)
  | .completeLoad ticket arrived =>
    let done := rig.manager.completeLoad ticket arrived rig.queue
    .ok (.completed done.result, { rig with manager := done.manager, queue := done.refresh })
  | .fire => .ok (.fired rig.queue.fire.1, { rig with queue := rig.queue.fire.2 })
  | .onTick token dice =>
    (rig.manager.onTick token rig.queue rig.sinks dice).map fun delivered =>
      (.ticked delivered.result, ⟨delivered.manager, delivered.refresh, delivered.sinks⟩)
  | .keyEvent c pressed => .ok (.done, { rig with manager := (rig.manager.keyEvent c pressed).1 })
  | .teardown =>
    let (manager, queue, _) := rig.manager.teardown rig.queue
    .ok (.done, { rig with manager, queue })

/-- Moves one after the other, up to a fault. -/
def run (rig : Rig M D S) : List Move → Except ArithmeticFault (List Reply × Rig M D S)
  | [] => .ok ([], rig)
  | move :: rest => do
    let (reply, rig) ← rig.move move
    let (replies, rig) ← rig.run rest
    return (reply :: replies, rig)

private theorem run_append (rig : Rig M D S) (moves others : List Move) :
    rig.run (moves ++ others) = do
      let (replies, rig) ← rig.run moves
      let (later, rig) ← rig.run others
      return (replies ++ later, rig) := by
  induction moves generalizing rig with
  | nil =>
    simp only [List.nil_append, run, bind, Except.bind]
    cases rig.run others <;> rfl
  | cons move rest ih =>
    simp only [List.cons_append, run, ih]
    cases rig.move move with
    | error fault => rfl
    | ok moved =>
      simp only [bind, Except.bind]
      cases moved.2.run rest with
      | error fault => rfl
      | ok ran =>
        simp only [pure, Except.pure]
        cases ran.2.run others <;> rfl

private theorem move_onTick_eq_ok_iff (rig : Rig M D S) (token : Token) (dice : Dice)
    (moved : Reply × Rig M D S) : rig.move (.onTick token dice) = .ok moved ↔
      ∃ delivered, rig.manager.onTick token rig.queue rig.sinks dice = .ok delivered ∧
        (.ticked delivered.result, ⟨delivered.manager, delivered.refresh, delivered.sinks⟩) =
          moved := by
  simp only [move]
  cases rig.manager.onTick token rig.queue rig.sinks dice <;> simp [Except.map]

private theorem move_quiet {rig after : Rig M D S} {m : Move} {reply : Reply}
    (h : rig.move m = .ok (reply, after)) (quiet : m.isQuiet = true)
    (settled : rig.manager.awaited = none) : rig.manager.SameCounts after.manager := by
  cases m with
  | beginLoad => cases quiet
  | completeLoad ticket arrived =>
    have unwanted : rig.manager.awaited ≠ some ticket := settled ▸ nofun
    simp only [move, SessionManager.completeLoad_superseded _ _ unwanted] at h
    cases h
    exact ⟨rfl, rfl, rfl, rfl⟩
  | fire =>
    cases h
    exact ⟨rfl, rfl, rfl, rfl⟩
  | onTick token dice =>
    obtain ⟨delivered, hdelivered, h⟩ := (move_onTick_eq_ok_iff ..).mp h
    cases h
    exact SessionManager.onTick_counts hdelivered
  | keyEvent c pressed =>
    cases h
    exact SessionManager.keyEvent_counts _ _ _
  | teardown => cases quiet

private theorem move_selecting {rig : Rig M D S} (settled : rig.manager.awaited = none) {m : Move}
    (quiet : m.isQuiet = true) : rig.selecting.move (m.skipping rig.manager.selections) =
      (rig.move m).map fun (reply, after) => (reply, after.selecting) := by
  -- a rig that awaits no image makes a quiet move as it does while it awaits one that the move does not
  -- bring
  cases m with
  | beginLoad => cases quiet
  | completeLoad ticket arrived =>
    have unwanted : rig.manager.awaited ≠ some ticket := settled ▸ nofun
    have unwanted' : rig.selecting.manager.awaited ≠
        some (ticket.skipping rig.manager.selections) := fun h =>
      LoadTicket.skipping_ne _ ticket (Option.some.inj h).symm
    simp only [Move.skipping, move, SessionManager.completeLoad_superseded _ _ unwanted,
      SessionManager.completeLoad_superseded _ _ unwanted']
    rfl
  | fire => rfl
  | onTick token dice =>
    simp only [Move.skipping, move, selecting]
    rw [SessionManager.onTick_counted (f := fun m => m.beginLoad.2) rig.manager.beginLoad_counted]
    cases rig.manager.onTick token rig.queue rig.sinks dice <;> rfl
  | keyEvent c pressed =>
    simp only [Move.skipping, move, selecting]
    rw [SessionManager.keyEvent_counted (f := fun m => m.beginLoad.2) rig.manager.beginLoad_counted]
    rfl
  | teardown => cases quiet

private theorem run_selecting {rig : Rig M D S} (settled : rig.manager.awaited = none)
    {moves : List Move} (quiet : ∀ m ∈ moves, m.isQuiet = true) :
    rig.selecting.run (moves.map (Move.skipping rig.manager.selections)) =
      (rig.run moves).map fun (replies, after) => (replies, after.selecting) := by
  induction moves generalizing rig with
  | nil => rfl
  | cons m rest ih =>
    have hquiet := quiet m List.mem_cons_self
    simp only [List.map_cons, run, move_selecting settled hquiet]
    cases hmoved : rig.move m with
    | error fault => rfl
    | ok moved =>
      -- the new ticket keeps its number, since quiet moves issue none
      have hcounts := move_quiet hmoved hquiet settled
      simp only [Except.map, bind, Except.bind]
      rw [← hcounts.selections, ih (hcounts.awaited.trans settled)
        fun m hm => quiet m (List.mem_cons_of_mem _ hm)]
      cases moved.2.run rest <;> rfl

/-- The factory builds the same machine every time. -/
def Uniform (rig : Rig M D S) : Prop := ∀ a b, rig.manager.factory a = rig.manager.factory b

private theorem move_skipping {rig : Rig M D S} (uniform : rig.Uniform) {k : Nat}
    (later : k ≤ rig.manager.selections) (built : Nat) (m : Move) :
    (rig.skipping k built).move (m.skipping k) =
      (rig.move m).map fun (reply, after) => (reply.skipping k, after.skipping k built) := by
  cases m with
  | beginLoad =>
    have hticket := LoadTicket.skipping_of_lt (Nat.lt_succ_of_le later)
    simp only [Move.skipping, move, Except.map, Reply.skipping, skipping, SessionManager.skipping,
      SessionManager.recount, selecting, SessionManager.beginLoad, Option.map_some, hticket]
  | completeLoad ticket arrived =>
    obtain ⟨hmanager, hrefresh, hresult⟩ :=
      SessionManager.completeLoad_skipping uniform k built ticket arrived rig.queue
    simp only [Move.skipping, move, Except.map, Reply.skipping, skipping, hmanager, hrefresh, hresult]
  | fire => rfl
  | onTick token dice =>
    simp only [Move.skipping, move, skipping]
    rw [SessionManager.onTick_counted (f := fun m => m.skipping k built)
      (rig.manager.skipping_counted k built)]
    cases rig.manager.onTick token rig.queue rig.sinks dice <;> rfl
  | keyEvent c pressed =>
    simp only [Move.skipping, move, skipping]
    rw [SessionManager.keyEvent_counted (f := fun m => m.skipping k built)
      (rig.manager.skipping_counted k built)]
    rfl
  | teardown => rfl

private theorem move_fixed {rig after : Rig M D S} {m : Move} {reply : Reply}
    (h : rig.move m = .ok (reply, after)) :
    after.manager.factory = rig.manager.factory ∧
      rig.manager.selections ≤ after.manager.selections := by
  cases m with
  | beginLoad =>
    cases h
    exact ⟨rfl, Nat.le_succ _⟩
  | completeLoad ticket arrived =>
    cases h
    generalize hdone : rig.manager.completeLoad ticket arrived rig.queue = done
    cases SessionManager.completeLoad_completion hdone <;> exact ⟨rfl, Nat.le_refl _⟩
  | fire =>
    cases h
    exact ⟨rfl, Nat.le_refl _⟩
  | onTick token dice =>
    obtain ⟨delivered, hdelivered, h⟩ := (move_onTick_eq_ok_iff ..).mp h
    cases h
    have hcounts := SessionManager.onTick_counts hdelivered
    exact ⟨hcounts.factory, Nat.le_of_eq hcounts.selections.symm⟩
  | keyEvent c pressed =>
    cases h
    have hcounts := SessionManager.keyEvent_counts rig.manager c pressed
    exact ⟨hcounts.factory, Nat.le_of_eq hcounts.selections.symm⟩
  | teardown =>
    cases h
    exact ⟨rfl, Nat.le_refl _⟩

private theorem run_skipping {rig : Rig M D S} (uniform : rig.Uniform) {k : Nat}
    (later : k ≤ rig.manager.selections) (built : Nat) (moves : List Move) :
    (rig.skipping k built).run (moves.map (Move.skipping k)) =
      (rig.run moves).map fun (replies, after) =>
        (replies.map (Reply.skipping k), after.skipping k built) := by
  induction moves generalizing rig with
  | nil => rfl
  | cons m rest ih =>
    simp only [List.map_cons, run, move_skipping uniform later]
    cases hmoved : rig.move m with
    | error fault => rfl
    | ok moved =>
      -- `k` stays below what was issued, so a ticket issued from here on is shifted
      obtain ⟨hfactory, hselections⟩ := move_fixed hmoved
      have uniform' : moved.2.Uniform := fun a b => hfactory ▸ uniform a b
      simp only [Except.map, bind, Except.bind]
      rw [ih uniform' (Nat.le_trans later hselections)]
      cases moved.2.run rest <;> rfl

private theorem move_failing {factory : Nat → M} (uniform : ∀ a b, factory a = factory b)
    {arrived : Except ConsoleError Rom}
    (fails : ∀ rom, arrived = .ok rom → ∃ e, Machine.load (factory 0) rom.bytes = .error e) :
    ∃ e built, ∀ rig : Rig M D S, rig.manager.factory = factory → rig.manager.awaited = none →
      rig.selecting.move (.completeLoad ⟨rig.manager.selections + 1⟩ arrived) =
        .ok (.completed (.error e), rig.skipping rig.manager.selections built) := by
  cases arrived with
  | error e =>
    refine ⟨e, 0, fun rig _ settled => ?_⟩
    have wanted : rig.selecting.manager.awaited = some ⟨rig.manager.selections + 1⟩ := rfl
    simp only [move, SessionManager.completeLoad_missing e _ wanted, skipping,
      SessionManager.skipping, settled]
    rfl
  | ok rom =>
    obtain ⟨e, refusal⟩ := fails rom rfl
    refine ⟨e, 1, fun rig hfactory settled => ?_⟩
    have wanted : rig.selecting.manager.awaited = some ⟨rig.manager.selections + 1⟩ := rfl
    have refusal' : Machine.load (rig.selecting.manager.factory (rig.selecting.manager.built + 1))
        rom.bytes = .error e := by
      change Machine.load (rig.manager.factory _) rom.bytes = .error e
      rw [hfactory, uniform _ 0, refusal]
    simp only [move, SessionManager.completeLoad_refused _ wanted refusal', skipping,
      SessionManager.skipping, settled]
    rfl

private theorem run_quiet {rig after : Rig M D S} {moves : List Move} {replies : List Reply}
    (h : rig.run moves = .ok (replies, after)) (quiet : ∀ m ∈ moves, m.isQuiet = true)
    (settled : rig.manager.awaited = none) : rig.manager.SameCounts after.manager := by
  induction moves generalizing rig replies with
  | nil =>
    cases h
    exact ⟨rfl, rfl, rfl, rfl⟩
  | cons m rest ih =>
    obtain ⟨⟨reply, mid⟩, hmoved, h⟩ := ArithmeticFault.bind_eq_ok_iff.mp h
    obtain ⟨⟨later, last⟩, hrest, h⟩ := ArithmeticFault.bind_eq_ok_iff.mp h
    cases h
    have hfirst := move_quiet hmoved (quiet m List.mem_cons_self) settled
    have hlater := ih hrest (fun m hm => quiet m (List.mem_cons_of_mem _ hm))
      (hfirst.awaited.trans settled)
    exact hfirst.trans hlater

private theorem run_factory {rig after : Rig M D S} {moves : List Move} {replies : List Reply}
    (h : rig.run moves = .ok (replies, after)) : after.manager.factory = rig.manager.factory := by
  induction moves generalizing rig replies with
  | nil =>
    cases h
    rfl
  | cons m rest ih =>
    obtain ⟨⟨reply, mid⟩, hmoved, h⟩ := ArithmeticFault.bind_eq_ok_iff.mp h
    obtain ⟨⟨later, last⟩, hrest, h⟩ := ArithmeticFault.bind_eq_ok_iff.mp h
    cases h
    exact (ih hrest).trans (move_fixed hmoved).1

private theorem run_opening {rig : Rig M D S} (settled : rig.manager.awaited = none)
    {between : List Move} (quiet : ∀ m ∈ between, m.isQuiet = true) :
    rig.run (.beginLoad :: between.map (Move.skipping rig.manager.selections)) =
      (rig.run between).map fun (quietly, mid) =>
        (.selected ⟨rig.manager.selections + 1⟩ :: quietly, mid.selecting) := by
  simp only [run, move, bind, Except.bind]
  rw [run_selecting settled quiet]
  cases rig.run between <;> rfl

private theorem run_closing {rig : Rig M D S} (uniform : rig.Uniform) {arrived : Except ConsoleError Rom}
    {e : ConsoleError} {built : Nat}
    (fails : rig.selecting.move (.completeLoad ⟨rig.manager.selections + 1⟩ arrived) =
      .ok (.completed (.error e), rig.skipping rig.manager.selections built)) (after : List Move) :
    rig.selecting.run (.completeLoad ⟨rig.manager.selections + 1⟩ arrived ::
        after.map (Move.skipping rig.manager.selections)) =
      (rig.run after).map fun (later, last) =>
        (.completed (.error e) :: later.map (Reply.skipping rig.manager.selections),
          last.skipping rig.manager.selections built) := by
  simp only [run, fails, bind, Except.bind]
  rw [run_skipping uniform (Nat.le_refl _)]
  cases rig.run after <;> rfl

/-- A selection that fails is not seen. Take any point of any run at which no image is awaited, on a rig
whose factory builds the same machine every time, and put in a selection there and its failure, with
moves between the two that neither select nor stop. Up to the failure nothing differs from the run
without them but that an image is awaited, and after it nothing but the numbers of the later tickets
and the count of machines. -/
theorem failed_load_unseen {start rig : Rig M D S} {before between : List Move}
    {told : List Reply} (uniform : start.Uniform) (reached : start.run before = .ok (told, rig))
    (settled : rig.manager.state ≠ .loading) (quiet : ∀ m ∈ between, m.isQuiet = true)
    {arrived : Except ConsoleError Rom}
    (fails : ∀ rom, arrived = .ok rom →
      ∃ e, Machine.load (start.manager.factory 0) rom.bytes = .error e) (after : List Move) :
    let k := rig.manager.selections
    let opening := .beginLoad :: between.map (Move.skipping k)
    let closing := .completeLoad ⟨k + 1⟩ arrived :: after.map (Move.skipping k)
    (start.run (before ++ between ++ after) = do
      let (quietly, mid) ← rig.run between
      let (later, last) ← mid.run after
      return (told ++ quietly ++ later, last)) ∧
    (start.run (before ++ opening) = do
      let (quietly, mid) ← rig.run between
      return (told ++ .selected ⟨k + 1⟩ :: quietly, mid.selecting)) ∧
    (∃ e built, start.run (before ++ opening ++ closing) = do
      let (quietly, mid) ← rig.run between
      let (later, last) ← mid.run after
      return (told ++ .selected ⟨k + 1⟩ :: quietly ++
        .completed (.error e) :: later.map (Reply.skipping k), last.skipping k built)) ∧
    (∀ rig : Rig M D S, rig.selecting.manager.state = .loading ∧
      ∀ k built, (rig.skipping k built).manager.state = rig.manager.state) ∧
    ∀ (m : SessionManager M) (ticket : LoadTicket) (arrived : Except ConsoleError Rom)
      (queue : RefreshQueue) (e : ConsoleError),
      let done := m.completeLoad ticket arrived queue
      done.result = .error e → done.manager.session = m.session ∧ done.manager.tokens = m.tokens ∧
        done.manager.keys = m.keys ∧ done.refresh = queue := by
  intro k opening closing
  have hsettled : rig.manager.awaited = none := by
    rw [SessionManager.state] at settled
    cases hawaited : rig.manager.awaited with
    | none => rfl
    | some ticket => exact absurd (by rw [hawaited]; rfl) settled
  have hfactory := run_factory reached
  obtain ⟨e, built, hfailing⟩ := move_failing (D := D) (S := S) uniform fails
  refine ⟨?_, ?_, ⟨e, built, ?_⟩, fun rig => ⟨rfl, rig.manager.state_skipping⟩, ?_⟩
  · rw [List.append_assoc, run_append, reached]
    simp only [bind, Except.bind, run_append rig between after]
    cases rig.run between with
    | error fault => rfl
    | ok ran =>
      simp only
      cases ran.2.run after with
      | error fault => rfl
      | ok ran' => simp only [pure, Except.pure, List.append_assoc]
  · rw [run_append, reached]
    simp only [bind, Except.bind, opening, k, run_opening hsettled quiet]
    cases rig.run between <;> rfl
  · rw [List.append_assoc, run_append, reached]
    simp only [bind, Except.bind, run_append rig opening closing]
    simp only [opening, closing, k, run_opening hsettled quiet]
    cases hran : rig.run between with
    | error fault => rfl
    | ok ran =>
      have hcounts := run_quiet hran quiet hsettled
      have uniform' : ran.2.Uniform := by
        rw [Uniform, hcounts.factory, hfactory]
        exact uniform
      have hclosing := run_closing uniform'
        (hfailing ran.2 (hcounts.factory.trans hfactory) (hcounts.awaited.trans hsettled)) after
      rw [hcounts.selections] at hclosing
      simp only [Except.map, hclosing]
      cases ran.2.run after with
      | error fault => rfl
      | ok ran' => simp [pure, Except.pure]
  · intro m ticket arrived queue e done herror
    have hdone : m.completeLoad ticket arrived queue = done := rfl
    generalize done = done at hdone herror
    cases SessionManager.completeLoad_completion hdone with
    | superseded => cases herror
    | missing => exact ⟨rfl, rfl, rfl, rfl⟩
    | refused => exact ⟨rfl, rfl, rfl, rfl⟩
    | activated => cases herror

/-- An image that is too large comes while a session runs and its tick is under way. -/
theorem failed_load_unseen_of_large :
    let start : Rig Interpreter RecordingDisplay Mute :=
      ⟨.new (fun _ => .initial) {}, {}, ⟨{}, .mute⟩⟩
    let maze : Rom := ⟨"maze", [0x12, 0x00], none⟩
    let large : Rom := ⟨"large", List.replicate 4000 0, none⟩
    let before : List Move := [.beginLoad, .completeLoad ⟨1⟩ (.ok maze)]
    let between : List Move := [.keyEvent 'w' true, .fire, .onTick ⟨1⟩ fun _ => 0]
    let seen (ran : List Reply × Rig Interpreter RecordingDisplay Mute) :=
      (ran.2.manager.session, ran.2.manager.tokens, ran.2.manager.keys, ran.2.queue, ran.2.sinks)
    start.Uniform ∧ (∀ m ∈ between, m.isQuiet = true) ∧
    (∃ told rig, start.run before = .ok (told, rig) ∧ rig.manager.state = .running) ∧
    (∃ e, Machine.load Interpreter.initial large.bytes = .error e) ∧
    (start.run (before ++ .beginLoad :: between ++
        [.completeLoad ⟨2⟩ (.ok large), .beginLoad, .completeLoad ⟨3⟩ (.ok maze)])).map seen =
      (start.run (before ++ between ++ [.beginLoad, .completeLoad ⟨2⟩ (.ok maze)])).map seen := by
  intro start maze large before between seen
  have uniform : start.Uniform := fun _ _ => rfl
  have quiet : ∀ m ∈ between, m.isQuiet = true := by
    simp [between, Move.isQuiet]
  have refusal : ∃ e, Machine.load Interpreter.initial large.bytes = .error e := by
    have long : large.bytes.length > Memory.maxProgram := by
      rw [List.length_replicate]
      decide
    simp only [Machine.load, Interpreter.load, Memory.load, if_pos long, Except.map]
    exact ⟨_, rfl⟩
  have fails (rom : Rom) (h : (.ok large : Except ConsoleError Rom) = .ok rom) :
      ∃ e, Machine.load (start.manager.factory 0) rom.bytes = .error e := by
    cases h
    exact refusal
  have reached : start.run before = .ok (_, _) := rfl
  refine ⟨uniform, quiet, ⟨_, _, reached, rfl⟩, refusal, ?_⟩
  obtain ⟨hwithout, -, ⟨e, built, hwith⟩, -⟩ := failed_load_unseen uniform reached nofun quiet fails
    [.beginLoad, .completeLoad ⟨2⟩ (.ok maze)]
  refine (congrArg (Except.map seen) hwith).trans
    (.trans ?_ (congrArg (Except.map seen) hwithout).symm)
  generalize run (_ : Rig Interpreter RecordingDisplay Mute) between = ran
  cases ran with
  | error fault => rfl
  | ok ran =>
    simp only [bind, Except.bind]
    cases ran.2.run _ <;> rfl

end Rig

end Chip8Console
