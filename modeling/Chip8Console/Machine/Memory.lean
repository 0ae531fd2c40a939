import Chip8Console.Error

/-!
The 4K address space: the hexadecimal font at 0x050, programs from 0x200 on. Addresses are 16 bits
wide and count modulo 4096, so that none is out of bounds.
-/
namespace Chip8Console

def Memory.size : Nat := 4096

/-- Contents of the RAM. -/
structure Memory where
  bytes : Vector UInt8 Memory.size

namespace Memory

def programStart : UInt16 := 0x200

def maxProgram : Nat := size - programStart.toNat

def fontStart : UInt16 := 0x050

def glyphHeight : UInt16 := 5

def font : List UInt8 := [
  0xF0, 0x90, 0x90, 0x90, 0xF0,
  0x20, 0x60, 0x20, 0x20, 0x70,
  0xF0, 0x10, 0xF0, 0x80, 0xF0,
  0xF0, 0x10, 0xF0, 0x10, 0xF0,
  0x90, 0x90, 0xF0, 0x10, 0x10,
  0xF0, 0x80, 0xF0, 0x10, 0xF0,
  0xF0, 0x80, 0xF0, 0x90, 0xF0,
  0xF0, 0x10, 0x20, 0x40, 0x40,
  0xF0, 0x90, 0xF0, 0x90, 0xF0,
  0xF0, 0x90, 0xF0, 0x10, 0xF0,
  0xF0, 0x90, 0xF0, 0x90, 0x90,
  0xE0, 0x90, 0xE0, 0x90, 0xE0,
  0xF0, 0x80, 0x80, 0x80, 0xF0,
  0xE0, 0x90, 0x90, 0x90, 0xE0,
  0xF0, 0x80, 0xF0, 0x80, 0xF0,
  0xF0, 0x80, 0xF0, 0x80, 0x80]

def cell (address : UInt16) : Fin size := ⟨address.toNat % size, Nat.mod_lt _ (by decide)⟩

def read (m : Memory) (address : UInt16) : UInt8 := m.bytes[cell address]

def write (m : Memory) (address : UInt16) (byte : UInt8) : Memory :=
  ⟨m.bytes.set (cell address) byte⟩

/-- The two bytes from `address` on, high byte first. -/
def word (m : Memory) (address : UInt16) : UInt16 :=
  (m.read address).toUInt16 <<< 8 ||| (m.read (address + 1)).toUInt16

/-- Write `data` byte by byte from `address` on. Data longer than the address space overwrites its
own beginning. -/
def writeSlice (m : Memory) (address : UInt16) (data : List UInt8) : Memory :=
  (data.foldl (fun (ram, next) byte => (ram.write next byte, next + 1)) (m, address)).1

def readSlice (m : Memory) (address : UInt16) (count : Nat) : List UInt8 :=
  (List.range count).map fun k => m.read (address + UInt16.ofNat k)

def zeroed : Memory := ⟨Vector.replicate size 0⟩

def initial : Memory := zeroed.writeSlice fontStart font

instance : Inhabited Memory := ⟨initial⟩

/-- Put a program at the load address. What lies around it stays as it is. -/
def load (m : Memory) (program : List UInt8) : Except ConsoleError Memory :=
  if program.length > maxProgram then .error (.romTooLarge program.length maxProgram)
  else .ok (m.writeSlice programStart program)

/-- Address of the glyph of a digit. Only the low four bits of `digit` count. -/
def glyph (digit : UInt8) : UInt16 := fontStart + glyphHeight * (digit &&& 0x0F).toUInt16

end Memory

end Chip8Console
