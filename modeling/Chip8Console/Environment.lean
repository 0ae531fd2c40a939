import Chip8Console.Input.KeyTranslator
import Chip8Console.Rom.Loader
import Chip8Console.Session.Manager

/-!
The console as a whole. Each step is one refresh of the screen: act on what the host says, deliver the
loads that are finished, run the ticks that are due. Host events and loads fall between ticks, never
inside one.
-/
namespace Chip8Console

inductive Flow where
  | goOn
  | quit
deriving DecidableEq, Repr

/-- The console with everything it is connected to. -/
structure Environment (M D S : Type) where
  sessions : SessionManager M
  refresh : RefreshQueue := {}
  loader : RomLoader := {}
  /-- the names behind the slots -/
  catalog : List String
  sinks : Sinks D S

namespace Environment

variable {M D S : Type} [Machine M] [Display D] [Sound S]

structure Outcome (M D S α : Type) where
  result : α
  environment : Environment M D S
  journal : Journal

def caption (env : Environment M D S) (text : String) : Environment M D S :=
  { env with sinks := { env.sinks with display := Display.caption env.sinks.display text } }

/-- Tell the user that something went wrong. Nothing else changes. The screen is presented again so
that the text shows even with nothing running. -/
def report (env : Environment M D S) (e : ConsoleError) : Environment M D S × Journal :=
  let env := env.caption e.message
  let (shown, display) := Display.present env.sinks.display
  let untold := match shown with
    | .ok () => []
    | .error cause => [Notice.errorNotShown cause]
  ({ env with sinks := { env.sinks with display } }, Journal.ofNotices (.failed e :: untold))

/-- Start loading an image. What runs carries on until it arrives. -/
def select (env : Environment M D S) (request : RomRequest) : Environment M D S × Journal :=
  let (ticket, sessions) := env.sessions.beginLoad
  let env := { env with sessions, loader := env.loader.submit ticket request }
  (env.caption ("loading " ++ request.label), Journal.ofNotices [.loading request.label])

def selectSlot (env : Environment M D S) (slot : Nat) :
    Outcome M D S (Except ConsoleError Unit) :=
  match env.catalog[slot]? with
  | none => ⟨.error (.unknownSlot slot), env, []⟩
  | some name =>
    let (env, told) := env.select (.named name)
    ⟨.ok (), env, told⟩

def handle (env : Environment M D S) : HostEvent → Outcome M D S Flow
  | .key c pressed =>
    let (sessions, told) := env.sessions.keyEvent c pressed
    ⟨.goOn, { env with sessions }, told⟩
  | .selectSlot slot =>
    let selected := env.selectSlot slot
    match selected.result with
    | .ok () => ⟨.goOn, selected.environment, selected.journal⟩
    | .error e =>
      let (env, told) := selected.environment.report e
      ⟨.goOn, env, selected.journal ++ told⟩
  | .quit => ⟨.quit, env, []⟩

/-- Act on host events until one of them quits. -/
def handleAll (env : Environment M D S) : List HostEvent → Outcome M D S Flow
  | [] => ⟨.goOn, env, []⟩
  | event :: rest =>
    let handled := env.handle event
    match handled.result with
    | .quit => handled
    | .goOn =>
      let others := handled.environment.handleAll rest
      { others with journal := handled.journal ++ others.journal }

/-- Deliver one finished load. A session that it starts gives the screen its name. -/
def finishLoad (env : Environment M D S) (load : LoadResult) : Environment M D S × Journal :=
  let done := env.sessions.completeLoad load.1 load.2 env.refresh
  let env := { env with sessions := done.manager, refresh := done.refresh }
  match done.result with
  | .ok (some _) =>
    (match done.manager.romName with
      | some name => env.caption name
      | none => env, done.journal)
  | .ok none => (env, done.journal)
  | .error e =>
    let (env, told) := env.report e
    (env, done.journal ++ told)

def finishAll (env : Environment M D S) : List LoadResult → Environment M D S × Journal
  | [] => (env, [])
  | load :: rest =>
    let (env, told) := env.finishLoad load
    let (env, others) := env.finishAll rest
    (env, told ++ others)

/-- Run due ticks until one fails. -/
def runTicks (env : Environment M D S) (dice : Dice) :
    List Token → Except ArithmeticFault (Outcome M D S (Except ConsoleError Flow))
  | [] => .ok ⟨.ok .goOn, env, []⟩
  | token :: rest => do
    let ran ← env.sessions.onTick token env.refresh env.sinks dice
    let env := { env with sessions := ran.manager, refresh := ran.refresh, sinks := ran.sinks }
    match ran.result with
    | .error e => return ⟨.error e, env, ran.journal⟩
    | .ok _ =>
      let others ← env.runTicks dice rest
      return { others with journal := ran.journal ++ others.journal }

def loadSome (env : Environment M D S) (answer : RomRequest → Fetched) (count : Nat) :
    Environment M D S :=
  { env with loader := env.loader.workMany answer count }

/-- Deliver what the worker has finished, then run the ticks that are due. -/
def refreshScreen (env : Environment M D S) (dice : Dice) :
    Except ArithmeticFault (Outcome M D S (Except ConsoleError Flow)) := do
  let (finished, loader) := env.loader.poll
  let (env, delivered) := { env with loader }.finishAll finished
  let (due, refresh) := env.refresh.fire
  let ran ← { env with refresh }.runTicks dice due
  return { ran with journal := delivered ++ ran.journal }

structure Surroundings where
  /-- what the host says, or why it cannot -/
  polled : Except Cause (List HostEvent)
  /-- how many requests the worker answers between the host's events and the delivery of loads -/
  answered : Nat := 0
  dice : Dice := fun _ => 0

def step (env : Environment M D S) (answer : RomRequest → Fetched) (world : Surroundings) :
    Except ArithmeticFault (Outcome M D S (Except ConsoleError Flow)) :=
  match world.polled with
  | .error cause => .ok ⟨.error (.terminal cause), env, []⟩
  | .ok events => do
    let handled := env.handleAll events
    match handled.result with
    | .quit => return ⟨.ok .quit, handled.environment, handled.journal⟩
    | .goOn =>
      let ran ← (handled.environment.loadSome answer world.answered).refreshScreen world.dice
      return { ran with journal := handled.journal ++ ran.journal }

def teardown (env : Environment M D S) : Environment M D S × Journal :=
  let (sessions, refresh, told) := env.sessions.teardown env.refresh
  ({ env with sessions, refresh }, Journal.ofNotices told)

structure Finished (M D S : Type) where
  /-- how the run ended, or nothing if the world contributed no more before that -/
  result : Option (Except ConsoleError Unit)
  environment : Environment M D S
  journal : Journal
  /-- what the world had to contribute to later steps -/
  unused : List Surroundings

/-- Step until a step quits or fails, then stop for good. After a fault nothing is stopped. -/
def run (env : Environment M D S) (answer : RomRequest → Fetched) :
    List Surroundings → Except ArithmeticFault (Finished M D S)
  | [] => .ok ⟨none, env, [], []⟩
  | world :: rest => do
    let stepped ← env.step answer world
    let ending (result : Except ConsoleError Unit) : Finished M D S :=
      let (env, told) := stepped.environment.teardown
      ⟨some result, env, stepped.journal ++ told, rest⟩
    match stepped.result with
    | .ok .quit => return ending (.ok ())
    | .error e => return ending (.error e)
    | .ok .goOn =>
      let others ← stepped.environment.run answer rest
      return { others with journal := stepped.journal ++ others.journal }

end Environment

end Chip8Console
