import Mathlib.Algebra.Group.Nat.Defs
import Chip8Console.Number.Word
import Chip8Console.Proofs.MachineOperations

/-!
The interpreter with nothing taken for granted. Its parts are bare arrays, each place in them is looked up
by its number, sums, products, differences and shifts are checked in words of their width, and a word
must be of one of sixteen families. Where one of these checks fails the machine stumbles.
-/
namespace Chip8Console

inductive Misstep where
  | outOfRange (place size : Nat)
  | arithmetic (fault : ArithmeticFault)
  | shiftedOut (amount : Nat)
  | noFamily (word : UInt16)
deriving DecidableEq, Repr

namespace Guarded

def lookUp {α : Type} (cells : Array α) (place : Nat) : Except Misstep α :=
  match cells[place]? with
  | some cell => .ok cell
  | none => .error (.outOfRange place cells.size)

def replace {α : Type} (cells : Array α) (place : Nat) (cell : α) : Except Misstep (Array α) :=
  if h : place < cells.size then .ok (cells.set place cell)
  else .error (.outOfRange place cells.size)

def add (width a b : Nat) : Except Misstep Nat :=
  if a + b < 2 ^ width then .ok (a + b) else .error (.arithmetic .addition)

def multiply (width a b : Nat) : Except Misstep Nat :=
  if a * b < 2 ^ width then .ok (a * b) else .error (.arithmetic .multiplication)

def before (byte : UInt8) : Except Misstep UInt8 :=
  if byte = 0 then .error (.arithmetic .subtraction) else .ok (byte - 1)

def shiftRight (byte : UInt8) (amount : Nat) : Except Misstep UInt8 :=
  if amount < 8 then .ok (byte >>> UInt8.ofNat amount) else .error (.shiftedOut amount)

def digit (n : Nat) : Except Misstep (Fin 16) :=
  if h : n < 16 then .ok ⟨n, h⟩ else .error (.outOfRange n 16)

/-- The instruction that a word stands for, its operands cut out by masks and shifts. -/
def decode (w : UInt16) : Except Misstep (Option Instruction) := do
  let x ← digit ((w &&& 0x0F00) >>> 8).toNat
  let y ← digit ((w &&& 0x00F0) >>> 4).toNat
  let n ← digit (w &&& 0x000F).toNat
  let nn := (w &&& 0x00FF).toUInt8
  let nnn := w &&& 0x0FFF
  match (w &&& 0xF000).toNat with
  | 0x0000 =>
    return some (if nnn = 0x0E0 then .clearScreen else if nnn = 0x0EE then .return else .hostRoutine nnn)
  | 0x1000 => return some (.jump nnn)
  | 0x2000 => return some (.call nnn)
  | 0x3000 => return some (.skipIfByte x nn)
  | 0x4000 => return some (.skipUnlessByte x nn)
  | 0x5000 => return some (.skipIfEqual x y)
  | 0x6000 => return some (.setByte x nn)
  | 0x7000 => return some (.addByte x nn)
  | 0x8000 => return (Arithmetic.ofDigit? n.val).map (.arithmetic · x y)
  | 0x9000 => return some (.skipUnlessEqual x y)
  | 0xA000 => return some (.setIndex nnn)
  | 0xB000 => return some (.jumpFrom nnn)
  | 0xC000 => return some (.random x nn)
  | 0xD000 => return some (.draw x y n)
  | 0xE000 =>
    return match nn.toNat with
      | 0x9E => some (.skipIfDown x)
      | 0xA1 => some (.skipUnlessDown x)
      | _ => none
  | 0xF000 =>
    return match nn.toNat with
      | 0x07 => some (.readDelay x)
      | 0x0A => some (.awaitKey x)
      | 0x15 => some (.setDelay x)
      | 0x18 => some (.setSound x)
      | 0x1E => some (.addIndex x)
      | 0x29 => some (.indexGlyph x)
      | 0x33 => some (.storeDecimal x)
      | 0x55 => some (.storeRegisters x)
      | 0x65 => some (.loadRegisters x)
      | _ => none
  | _ => .error (.noFamily w)

end Guarded

/-- The parts of the interpreter as bare arrays. -/
structure GuardedMachine where
  memory : Array UInt8
  pc : UInt16
  index : UInt16
  v : Array UInt8
  stack : List UInt16
  delay : UInt8
  sound : UInt8
  frame : Array Pixel
  keys : Array Bool
  redraw : Bool

namespace Guarded

def write (memory : Array UInt8) (address : UInt16) (byte : UInt8) : Except Misstep (Array UInt8) :=
  replace memory (address.toNat % Memory.size) byte

def writeSlice (memory : Array UInt8) (address : UInt16) : List UInt8 → Except Misstep (Array UInt8)
  | [] => .ok memory
  | byte :: rest => do writeSlice (← write memory address byte) (address + 1) rest

def slice {α : Type} (cells : Array α) (count : Nat) : Except Misstep (List α) :=
  if count ≤ cells.size then .ok (cells.toList.take count) else .error (.outOfRange count cells.size)

def glyph (digit : UInt8) : Except Misstep UInt16 := do
  let offset ← multiply 16 Memory.glyphHeight.toNat (digit &&& 0x0F).toNat
  return UInt16.ofNat (← add 16 Memory.fontStart.toNat offset)

abbrev Canvas := Array Pixel × Bool

def toggle (canvas : Canvas) (column row : Nat) : Except Misstep Canvas := do
  let above ← multiply 64 (row % Frame.height) Frame.width
  let place ← add 64 above (column % Frame.width)
  let pixel ← lookUp canvas.1 place
  return (← replace canvas.1 place (pixel ^^^ 1), canvas.2 || pixel != 0)

def drawBit (bits : UInt8) (column row : Nat) (canvas : Canvas) (across : Nat) :
    Except Misstep Canvas := do
  if bits &&& (← shiftRight 0x80 across) != 0 then
    toggle canvas (← add 64 column across) row
  else
    return canvas

end Guarded

namespace GuardedMachine
open Guarded

def new : Except Misstep GuardedMachine := do
  let memory ← writeSlice (Array.replicate Memory.size 0) Memory.fontStart Memory.font
  return {
    memory
    pc := Memory.programStart
    index := 0
    v := Array.replicate 16 0
    stack := []
    delay := 0
    sound := 0
    frame := Array.replicate Frame.size 0
    keys := Array.replicate 16 false
    redraw := false }

def read (m : GuardedMachine) (address : UInt16) : Except Misstep UInt8 :=
  lookUp m.memory (address.toNat % Memory.size)

def word (m : GuardedMachine) (address : UInt16) : Except Misstep UInt16 := do
  let high ← m.read address
  let low ← m.read (address + 1)
  return high.toUInt16 <<< 8 ||| low.toUInt16

def register (m : GuardedMachine) (x : Register) : Except Misstep UInt8 := lookUp m.v x.val

def setRegister (m : GuardedMachine) (x : Register) (byte : UInt8) : Except Misstep GuardedMachine := do
  return { m with v := ← replace m.v x.val byte }

def skipIf (m : GuardedMachine) (condition : Bool) : GuardedMachine :=
  if condition then { m with pc := m.pc + 2 } else m

def calculate (m : GuardedMachine) (op : Arithmetic) (x y : Register) :
    Except Misstep GuardedMachine := do
  let (result, carry) := Interpreter.compute (← m.register x) (← m.register y) op
  let m ← m.setRegister x result
  match carry with
  | none => return m
  | some bit => m.setRegister flagRegister bit

def keyDown (m : GuardedMachine) (x : Register) : Except Misstep Bool := do
  lookUp m.keys ((← m.register x) &&& 0x0F).toNat

def drawRow (m : GuardedMachine) (column row : Nat) (canvas : Canvas) (down : Nat) :
    Except Misstep Canvas := do
  let bits ← m.read (m.index + UInt16.ofNat down)
  let row ← add 64 row down
  (List.range 8).foldlM (drawBit bits column row) canvas

def drawSprite (m : GuardedMachine) (x y : Register) (height : Nat) :
    Except Misstep GuardedMachine := do
  let column ← m.register x
  let row ← m.register y
  let (frame, met) ← (List.range height).foldlM (m.drawRow column.toNat row.toNat) (m.frame, false)
  let m ← m.setRegister flagRegister (Interpreter.flag met)
  return { m with frame, redraw := true }

def loadRegister (m : GuardedMachine) (v : Array UInt8) (k : Nat) : Except Misstep (Array UInt8) := do
  replace v k (← m.read (m.index + UInt16.ofNat k))

def execute (m : GuardedMachine) (random : UInt8) :
    Instruction → Except Misstep (GuardedMachine × Option Notice)
  | .hostRoutine _ => return (m, none)
  | .clearScreen => return ({ m with frame := m.frame.map fun _ => 0, redraw := true }, none)
  | .return =>
    match m.stack with
    | [] => return (m, some (.emptyStack (m.pc - 2)))
    | caller :: callers => return ({ m with pc := caller, stack := callers }, none)
  | .jump address => return ({ m with pc := address }, none)
  | .call address =>
    if m.stack.length = Interpreter.stackDepth then return (m, some (.stackOverflow (m.pc - 2)))
    else return ({ m with pc := address, stack := m.pc :: m.stack }, none)
  | .skipIfByte x byte => return (m.skipIf ((← m.register x) == byte), none)
  | .skipUnlessByte x byte => return (m.skipIf ((← m.register x) != byte), none)
  | .skipIfEqual x y => return (m.skipIf ((← m.register x) == (← m.register y)), none)
  | .setByte x byte => return (← m.setRegister x byte, none)
  | .addByte x byte => return (← m.setRegister x ((← m.register x) + byte), none)
  | .arithmetic op x y => return (← m.calculate op x y, none)
  | .skipUnlessEqual x y => return (m.skipIf ((← m.register x) != (← m.register y)), none)
  | .setIndex address => return ({ m with index := address }, none)
  | .jumpFrom address => return ({ m with pc := address + (← lookUp m.v 0).toUInt16 }, none)
  | .random x mask => return (← m.setRegister x (mask &&& random), none)
  | .draw x y height => return (← m.drawSprite x y height.val, none)
  | .skipIfDown x => return (m.skipIf (← m.keyDown x), none)
  | .skipUnlessDown x => return (m.skipIf (!(← m.keyDown x)), none)
  | .readDelay x => return (← m.setRegister x m.delay, none)
  | .awaitKey x => do
    match m.keys.findIdx? id with
    | some key => return (← m.setRegister x (UInt8.ofNat key), none)
    | none => return ({ m with pc := m.pc - 2 }, none)
  | .setDelay x => return ({ m with delay := ← m.register x }, none)
  | .setSound x => return ({ m with sound := ← m.register x }, none)
  | .addIndex x => return ({ m with index := m.index + (← m.register x).toUInt16 }, none)
  | .indexGlyph x => return ({ m with index := ← glyph (← m.register x) }, none)
  | .storeDecimal x => do
    let digits := Interpreter.decimalDigits (← m.register x)
    return ({ m with memory := ← writeSlice m.memory m.index digits }, none)
  | .storeRegisters x => do
    let registers ← slice m.v (x.val + 1)
    return ({ m with memory := ← writeSlice m.memory m.index registers }, none)
  | .loadRegisters x =>
    return ({ m with v := ← (List.range (x.val + 1)).foldlM m.loadRegister m.v }, none)

-- a machine that has lost its registers
example (m : GuardedMachine) :
    { m with v := #[] }.execute 0 (.setByte 3 1) = .error (.outOfRange 3 0) := rfl

def cycle (m : GuardedMachine) (random : UInt8) :
    Except Misstep (GuardedMachine × Option Notice) := do
  let word ← m.word m.pc
  let fetched := { m with redraw := false, pc := m.pc + 2 }
  match ← decode word with
  | some instruction => fetched.execute random instruction
  | none => return (fetched, some (.unknownInstruction word (fetched.pc - 2)))

def tickTimers (m : GuardedMachine) : Except Misstep (Bool × GuardedMachine) := do
  let m := { m with delay := if m.delay = 0 then 0 else m.delay - 1 }
  if 0 < m.sound then return (true, { m with sound := ← before m.sound })
  else return (false, m)

def load (m : GuardedMachine) (program : List UInt8) :
    Except Misstep (GuardedMachine × Except ConsoleError Unit) := do
  let fresh ← new
  if Memory.maxProgram < program.length then
    return (m, .error (.romTooLarge program.length Memory.maxProgram))
  else
    let memory ← writeSlice fresh.memory Memory.programStart program
    return ({ fresh with memory }, .ok ())

def perform (m : GuardedMachine) :
    Interpreter.Operation → Except Misstep (GuardedMachine × Interpreter.Answer)
  | .load program => do
    let (after, result) ← m.load program
    return (after, .loaded result)
  | .cycle random => do
    let (after, told) ← m.cycle random
    return (after, .cycled told)
  | .tickTimers => do
    let (beep, after) ← m.tickTimers
    return (after, .timed beep)
  | .setKey key pressed => return ({ m with keys := ← replace m.keys key.val pressed }, .keyed)

def performAll (m : GuardedMachine) :
    List Interpreter.Operation → Except Misstep (GuardedMachine × List Interpreter.Answer)
  | [] => return (m, [])
  | op :: rest => do
    let (after, answer) ← m.perform op
    let (last, answers) ← after.performAll rest
    return (last, answer :: answers)

end GuardedMachine

end Chip8Console
