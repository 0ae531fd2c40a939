import Chip8Console.Keypad.Layout
import Chip8Console.Refresh.Queue
import Chip8Console.Rom.Basic
import Chip8Console.Session.Scheduler

/-!
The one running session and its replacement. A selection leaves the old session running until the new
image has arrived; then the old session's pending tick is withdrawn and its token retired in one step,
so that a tick of the old session that was already due finds its token dead. Keys are released at every
change of sessions.
-/
namespace Chip8Console

structure Session (M : Type) where
  token : Token
  machine : M
  scheduler : Scheduler
  rom : String
  /-- the tick requested and not yet delivered -/
  pending : Option TickHandle

inductive SessionState where
  | idle
  /-- an image is on its way; a running session carries on until then -/
  | loading
  | running
deriving DecidableEq, Repr

inductive TickStatus where
  | ran (outcome : TickOutcome)
  /-- the tick's session is gone, so nothing was run -/
  | stale
deriving DecidableEq, Repr

/-- Owns the running session. -/
structure SessionManager (M : Type) where
  /-- the machine for the k-th session, counted from one -/
  factory : Nat → M
  settings : SchedulerSettings
  /-- how many machines were built -/
  built : Nat := 0
  tokens : TokenSource := {}
  keys : KeyTable := KeyTable.released
  session : Option (Session M) := none
  /-- the selection that is still wanted -/
  awaited : Option LoadTicket := none
  /-- how many selections were made -/
  selections : Nat := 0

namespace SessionManager

variable {M R D S : Type}

def state (m : SessionManager M) : SessionState :=
  if m.awaited.isSome then .loading else if m.session.isSome then .running else .idle

def ticks (m : SessionManager M) : Nat := (m.session.map fun s => s.scheduler.ticks).getD 0

def romName (m : SessionManager M) : Option String := m.session.map Session.rom

/-- Begin a selection. Every earlier one is no longer wanted from here on. -/
def beginLoad (m : SessionManager M) : LoadTicket × SessionManager M :=
  let ticket : LoadTicket := ⟨m.selections + 1⟩
  (ticket, { m with selections := m.selections + 1, awaited := some ticket })

structure Completed (M R : Type) where
  manager : SessionManager M
  refresh : R
  /-- the token of the new session, or nothing if the selection was no longer wanted -/
  result : Except ConsoleError (Option Token)
  journal : Journal

def withdraw [RefreshHost R] (refresh : R) (session : Session M) : R :=
  match session.pending with
  | some handle => RefreshHost.cancel refresh handle
  | none => refresh

def retire [RefreshHost R] (m : SessionManager M) (refresh : R) : R × List Notice :=
  match m.session with
  | some old => (withdraw refresh old, [.retiring old.rom old.scheduler.ticks old.scheduler.cycles])
  | none => (refresh, [])

def activate [RefreshHost R] (m : SessionManager M) (refresh : R) (machine : M) (rom : Rom) :
    Completed M R :=
  let (refresh, retired) := m.retire refresh
  let (token, tokens) := m.tokens.activate
  let (handle, refresh) := RefreshHost.request refresh token
  let session : Session M :=
    { token, machine, scheduler := .ofSettings m.settings, rom := rom.name, pending := some handle }
  { manager := { m with tokens, keys := .released, session := some session }
    refresh
    result := .ok (some token)
    journal := Journal.ofNotices
      (retired ++ [.running rom.name rom.bytes.length] ++ rom.description.toList.map .description) }

/-- Finish a selection. On failure whatever ran before is left as it was. -/
def completeLoad [Machine M] [RefreshHost R] (m : SessionManager M) (ticket : LoadTicket)
    (arrived : Except ConsoleError Rom) (refresh : R) : Completed M R :=
  if m.awaited ≠ some ticket then
    ⟨m, refresh, .ok none, Journal.ofNotices [.supersededLoad ticket.number]⟩
  else
    let m := { m with awaited := none }
    match arrived with
    | .error e => ⟨m, refresh, .error e, []⟩
    | .ok rom =>
      let m := { m with built := m.built + 1 }
      match Machine.load (m.factory m.built) rom.bytes with
      | .error e => ⟨m, refresh, .error e, []⟩
      | .ok (machine, loaded) =>
        let done := m.activate refresh machine rom
        { done with journal := loaded ++ done.journal }

structure Delivered (M R D S : Type) where
  manager : SessionManager M
  refresh : R
  sinks : Sinks D S
  result : Except ConsoleError TickStatus
  journal : Journal

/-- The session that a tick belongs to, if it is still the live one. -/
def live? (m : SessionManager M) (token : Token) : Option (Session M) :=
  m.session.filter fun s => m.tokens.isActive token && s.token == token

/-- Run the tick requested for `token`, then ask for the next one. After a failing tick none is asked
for. -/
def onTick [Machine M] [RefreshHost R] [Display D] [Sound S] (m : SessionManager M) (token : Token)
    (refresh : R) (sinks : Sinks D S) (dice : Dice) : Except ArithmeticFault (Delivered M R D S) :=
  match m.live? token with
  | none => .ok ⟨m, refresh, sinks, .ok .stale, Journal.ofNotices [.staleTick token.number]⟩
  | some session =>
    (session.scheduler.tick session.machine sinks dice).map fun ticked =>
      let after (pending : Option TickHandle) : SessionManager M :=
        { m with
          session := some
            { session with machine := ticked.machine, scheduler := ticked.scheduler, pending } }
      match ticked.result with
      | .error e => ⟨after none, refresh, ticked.sinks, .error e, ticked.journal⟩
      | .ok outcome =>
        let (handle, refresh) := RefreshHost.request refresh token
        ⟨after (some handle), refresh, ticked.sinks, .ok (.ran outcome), ticked.journal⟩

/-- What the delivery of several ticks left behind. -/
structure DeliveredAll (M R D S : Type) where
  manager : SessionManager M
  refresh : R
  sinks : Sinks D S
  results : List (Except ConsoleError TickStatus)
  journal : Journal

def onTicks [Machine M] [RefreshHost R] [Display D] [Sound S] (m : SessionManager M) (refresh : R)
    (sinks : Sinks D S) (dice : Dice) : List Token → Except ArithmeticFault (DeliveredAll M R D S)
  | [] => .ok ⟨m, refresh, sinks, [], []⟩
  | token :: rest => do
    let first ← m.onTick token refresh sinks dice
    let others ← first.manager.onTicks first.refresh first.sinks dice rest
    return { others with
      results := first.result :: others.results
      journal := first.journal ++ others.journal }

/-- A host key went down or up. Only a change of the key reaches the machine, if one is running. -/
def keyEvent [Machine M] (m : SessionManager M) (c : Char) (pressed : Bool) :
    SessionManager M × Journal :=
  let (changed, keys) := m.keys.hostKey c pressed
  match changed, m.session with
  | some key, some session =>
    let (machine, told) := Machine.setKey session.machine key pressed
    ({ m with keys, session := some { session with machine } }, told)
  | _, _ => ({ m with keys }, [])

/-- Stop for good. No tick of the running session is run after this. -/
def teardown [RefreshHost R] (m : SessionManager M) (refresh : R) :
    SessionManager M × R × List Notice :=
  let (refresh, told) := match m.session with
    | some old => (withdraw refresh old, [Notice.stopped old.rom old.scheduler.ticks])
    | none => (refresh, [])
  ({ m with awaited := none, session := none, tokens := m.tokens.invalidate, keys := .released },
    refresh, told)

end SessionManager

end Chip8Console
