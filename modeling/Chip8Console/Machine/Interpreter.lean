import Chip8Console.Machine.Basic
import Chip8Console.Machine.Instruction
import Chip8Console.Machine.Memory
import Chip8Console.Notice

/-!
The interpreter: one cycle fetches a word, steps the program counter past it and carries out the
instruction. Sprites are drawn by exclusive or and wrap at the edges; the shift instructions work on
Vx in place; a wait for a key runs again until some key is down. As a machine of the console it tells
the journal only what it warns of.
-/
namespace Chip8Console

def Interpreter.stackDepth : Nat := 16

structure Interpreter where
  memory : Memory
  /-- address of the next instruction -/
  pc : UInt16
  /-- the index register I -/
  index : UInt16
  /-- the registers V0 to VF -/
  v : Vector UInt8 16
  /-- return addresses, latest call first -/
  stack : List UInt16
  delay : UInt8
  sound : UInt8
  frame : Frame
  keys : KeyTable
  /-- whether the last cycle changed the picture -/
  redraw : Bool

namespace Interpreter

def initial : Interpreter where
  memory := Memory.initial
  pc := Memory.programStart
  index := 0
  v := Vector.replicate 16 0
  stack := []
  delay := 0
  sound := 0
  frame := Frame.blank
  keys := KeyTable.released
  redraw := false

instance : Inhabited Interpreter := ⟨initial⟩

/-- The address of the instruction being carried out, once `pc` is past it. -/
def origin (s : Interpreter) : UInt16 := s.pc - 2

def setRegister (s : Interpreter) (x : Register) (byte : UInt8) : Interpreter :=
  { s with v := s.v.set x byte }

def skipIf (s : Interpreter) (condition : Bool) : Interpreter :=
  if condition then { s with pc := s.pc + 2 } else s

/-- The key that a register names by its low four bits. -/
def keyOf (s : Interpreter) (x : Register) : Key := lastDigit s.v[x].toNat

def flag (condition : Bool) : UInt8 := if condition then 1 else 0

/-- The new Vx of an arithmetic instruction and, if the operation has one, its flag. -/
def compute (vx vy : UInt8) : Arithmetic → UInt8 × Option UInt8
  | .copy => (vy, none)
  | .or => (vx ||| vy, none)
  | .and => (vx &&& vy, none)
  | .xor => (vx ^^^ vy, none)
  | .add => (vx + vy, some (flag (decide (256 ≤ vx.toNat + vy.toNat))))
  | .subtract => (vx - vy, some (flag (decide (vy ≤ vx))))
  | .shiftRight => (vx >>> 1, some (vx &&& 1))
  | .subtractFrom => (vy - vx, some (flag (decide (vx ≤ vy))))
  | .shiftLeft => (vx <<< 1, some (vx >>> 7))

/-- Carry out an arithmetic instruction. The flag is written last, so that it wins over the result
where Vx is the flag register. -/
def calculate (s : Interpreter) (op : Arithmetic) (x y : Register) : Interpreter :=
  let (result, carry) := compute s.v[x] s.v[y] op
  let s := s.setRegister x result
  match carry with
  | none => s
  | some bit => s.setRegister flagRegister bit

/-- The places that a sprite covers: `height` rows of eight columns from memory at I on, drawn with
its corner at (`column`, `row`). -/
def spriteCells (s : Interpreter) (column row : UInt8) (height : Nat) : List Frame.Cell :=
  (List.range height).flatMap fun down =>
    let bits := s.memory.read (s.index + UInt16.ofNat down)
    ((List.range 8).filter fun across => bits &&& (0x80 >>> UInt8.ofNat across) != 0).map
      fun across => Frame.cell (column.toNat + across) (row.toNat + down)

/-- Draw a sprite at (Vx, Vy). The flag tells whether it met a lit pixel. -/
def drawSprite (s : Interpreter) (x y : Register) (height : Nat) : Interpreter :=
  let cells := s.spriteCells s.v[x] s.v[y] height
  let met := cells.any s.frame.isLit
  { s with
    frame := cells.foldl Frame.toggle s.frame
    v := s.v.set flagRegister (flag met)
    redraw := true }

def decimalDigits (byte : UInt8) : List UInt8 := [byte / 100, byte / 10 % 10, byte % 10]

/-- Carry out an instruction that lies just behind `pc`. `random` is the byte that a random
instruction draws. -/
def execute (s : Interpreter) (random : UInt8) : Instruction → Interpreter × Option Notice
  | .hostRoutine _ => (s, none)
  | .clearScreen => ({ s with frame := Frame.blank, redraw := true }, none)
  | .return =>
    match s.stack with
    | [] => (s, some (.emptyStack s.origin))
    | caller :: callers => ({ s with pc := caller, stack := callers }, none)
  | .jump address => ({ s with pc := address }, none)
  | .call address =>
    if s.stack.length = stackDepth then (s, some (.stackOverflow s.origin))
    else ({ s with pc := address, stack := s.pc :: s.stack }, none)
  | .skipIfByte x byte => (s.skipIf (s.v[x] == byte), none)
  | .skipUnlessByte x byte => (s.skipIf (s.v[x] != byte), none)
  | .skipIfEqual x y => (s.skipIf (s.v[x] == s.v[y]), none)
  | .setByte x byte => (s.setRegister x byte, none)
  | .addByte x byte => (s.setRegister x (s.v[x] + byte), none)
  | .arithmetic op x y => (s.calculate op x y, none)
  | .skipUnlessEqual x y => (s.skipIf (s.v[x] != s.v[y]), none)
  | .setIndex address => ({ s with index := address }, none)
  | .jumpFrom address => ({ s with pc := address + s.v[0].toUInt16 }, none)
  | .random x mask => (s.setRegister x (mask &&& random), none)
  | .draw x y height => (s.drawSprite x y height.val, none)
  | .skipIfDown x => (s.skipIf (s.keys.isDown (s.keyOf x)), none)
  | .skipUnlessDown x => (s.skipIf (!s.keys.isDown (s.keyOf x)), none)
  | .readDelay x => (s.setRegister x s.delay, none)
  | .awaitKey x =>
    match s.keys.lowest? with
    | some key => (s.setRegister x (UInt8.ofNat key.val), none)
    | none => ({ s with pc := s.pc - 2 }, none)
  | .setDelay x => ({ s with delay := s.v[x] }, none)
  | .setSound x => ({ s with sound := s.v[x] }, none)
  | .addIndex x => ({ s with index := s.index + s.v[x].toUInt16 }, none)
  | .indexGlyph x => ({ s with index := Memory.glyph s.v[x] }, none)
  | .storeDecimal x =>
    ({ s with memory := s.memory.writeSlice s.index (decimalDigits s.v[x]) }, none)
  | .storeRegisters x =>
    ({ s with memory := s.memory.writeSlice s.index (s.v.toList.take (x.val + 1)) }, none)
  | .loadRegisters x =>
    let loaded := Vector.ofFn fun k : Register =>
      if k ≤ x then s.memory.read (s.index + UInt16.ofNat k.val) else s.v[k]
    ({ s with v := loaded }, none)

def nextWord (s : Interpreter) : UInt16 := s.memory.word s.pc

def fetched (s : Interpreter) : Interpreter := { s with redraw := false, pc := s.pc + 2 }

/-- Execute exactly one instruction, or skip one word that stands for none. -/
def cycle (s : Interpreter) (random : UInt8) : Interpreter × Option Notice :=
  match Instruction.decode? s.nextWord with
  | some instruction => s.fetched.execute random instruction
  | none => (s.fetched, some (.unknownInstruction s.nextWord s.fetched.origin))

/-- Run one cycle for each byte that the random instructions may draw, with all notices. -/
def run (s : Interpreter) : List UInt8 → Interpreter × List Notice
  | [] => (s, [])
  | random :: rest =>
    let (after, notice) := s.cycle random
    let (last, notices) := after.run rest
    (last, notice.toList ++ notices)

def trace (s : Interpreter) : List UInt8 → List (Interpreter × List Notice)
  | [] => []
  | random :: rest =>
    let (after, notice) := s.cycle random
    (after, notice.toList) :: after.trace rest

/-- Count both timers down by one unit. A tone sounds while the sound timer was still running. -/
def tickTimers (s : Interpreter) : Bool × Interpreter :=
  (decide (s.sound ≠ 0),
    { s with
      delay := if s.delay = 0 then 0 else s.delay - 1
      sound := if s.sound = 0 then 0 else s.sound - 1 })

/-- Count the timers down several times: whether a tone sounded, each time, and the last state. -/
def tickTimersMany (s : Interpreter) : Nat → List Bool × Interpreter
  | 0 => ([], s)
  | count + 1 =>
    let (beep, after) := s.tickTimers
    let (beeps, last) := after.tickTimersMany count
    (beep :: beeps, last)

def load (program : List UInt8) : Except ConsoleError Interpreter :=
  (Memory.initial.load program).map fun memory => { initial with memory }

def setKey (s : Interpreter) (key : Key) (pressed : Bool) : Interpreter :=
  { s with keys := s.keys.set key pressed }

private def registerName (x : Register) : String := "V" ++ String.singleton (Key.legend x)

def registers (s : Interpreter) : List (String × Nat) :=
  [("PC", s.pc.toNat), ("I", s.index.toNat)]
    ++ (List.finRange 16).map (fun x : Register => (registerName x, (s.v.get x).toNat))
    ++ [("ST", s.sound.toNat), ("DT", s.delay.toNat)]

private def leftAligned (width : Nat) (text : String) : String :=
  text ++ String.ofList (List.replicate (width - text.length) ' ')

def dump (s : Interpreter) : String :=
  "\n".intercalate <| s.registers.map fun (name, value) =>
    leftAligned 5 (name ++ ":") ++ "  0x" ++ Text.hex value

instance : Machine Interpreter where
  cycle s random :=
    let (after, notice) := s.cycle random
    (after, Journal.ofNotices notice.toList)
  pendingRedraw s := s.redraw
  tickTimers s :=
    let (beep, after) := s.tickTimers
    (beep, after, [])
  frame s := s.frame
  load _ program := (Interpreter.load program).map fun after => (after, [])
  setKey s key pressed := (s.setKey key pressed, [])

end Interpreter

end Chip8Console
