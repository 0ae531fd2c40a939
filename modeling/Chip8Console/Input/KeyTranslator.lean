import Chip8Console.Input.ReleaseLatch

/-!
Key events of a terminal turned into host events. A terminal that reports releases is taken at its
word; for any other, releases are made up from presses that have gone quiet.
-/
namespace Chip8Console

inductive HostEvent where
  /-- a host key went down or up -/
  | key (char : Char) (pressed : Bool)
  /-- the image in this place of the catalog is wanted, counted from zero -/
  | selectSlot (slot : Nat)
  | quit
deriving DecidableEq, Repr

inductive KeyMotion where
  | press
  /-- the key is still down, and the terminal says so again -/
  | repeated
  | release
deriving DecidableEq, Repr

inductive KeyCode where
  | char (c : Char)
  /-- the function key with this number -/
  | function (number : Nat)
  | escape
  /-- a key that means nothing to the console -/
  | other
deriving DecidableEq, Repr

structure KeyEvent where
  code : KeyCode
  motion : KeyMotion := .press
  control : Bool := false
deriving DecidableEq, Repr

structure KeyTranslator where
  /-- whether the terminal reports releases -/
  enhanced : Bool
  latch : ReleaseLatch
  /-- refreshes begun so far -/
  refreshes : Nat := 0
deriving DecidableEq, Repr

namespace KeyTranslator

def ofHold (enhanced : Bool) (hold : Nat) : KeyTranslator :=
  { enhanced, latch := ReleaseLatch.ofHold hold }

/-- What a character key does. A terminal that reports releases tells nothing new by a repeat; for any
other, a press that renews a hold and a release of a key that is not held tell nothing new. -/
def translateChar (t : KeyTranslator) (c : Char) (motion : KeyMotion) :
    Except ArithmeticFault (List HostEvent × KeyTranslator) :=
  let c := c.toLower
  let pressed := decide (motion ≠ .release)
  if t.enhanced then .ok (if motion = .repeated then [] else [.key c pressed], t)
  else if pressed then
    (t.latch.press c t.refreshes).map fun (fresh, latch) =>
      (if fresh then [.key c true] else [], { t with latch })
  else
    let (held, latch) := t.latch.release c
    .ok (if held then [.key c false] else [], { t with latch })

/-- Whether the event ends the console: escape, or control and the lower-case letter c. -/
def quits (e : KeyEvent) : Bool :=
  e.motion != .release && (e.code == .escape || (e.code == .char 'c' && e.control))

/-- The host events that a key event stands for. F1 to F12 select an image when pressed. -/
def translate (t : KeyTranslator) (e : KeyEvent) :
    Except ArithmeticFault (List HostEvent × KeyTranslator) :=
  if quits e then .ok ([.quit], t)
  else
    match e.code with
    | .char c => t.translateChar c e.motion
    | .function n =>
      .ok (if e.motion = .press ∧ 1 ≤ n ∧ n ≤ 12 then [.selectSlot (n - 1)] else [], t)
    | .escape | .other => .ok ([], t)

def translateAll (t : KeyTranslator) :
    List KeyEvent → Except ArithmeticFault (List HostEvent × KeyTranslator)
  | [] => .ok ([], t)
  | e :: rest => do
    let (first, t) ← t.translate e
    let (others, t) ← t.translateAll rest
    return (first ++ others, t)

def beginRefresh (t : KeyTranslator) : KeyTranslator := { t with refreshes := t.refreshes + 1 }

/-- The releases of keys that have gone quiet, to be asked for after the events of a refresh. -/
def madeUpReleases (t : KeyTranslator) : List HostEvent × KeyTranslator :=
  if t.enhanced then ([], t)
  else
    let (quiet, latch) := t.latch.expire t.refreshes
    (quiet.map fun c => .key c false, { t with latch })

end KeyTranslator

end Chip8Console
