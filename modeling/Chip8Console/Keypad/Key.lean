/-!
The sixteen keys of the hexadecimal keypad and the table of those that are held down.
-/
namespace Chip8Console

abbrev Key := Fin 16

namespace Key

def ofSlot? (slot : Nat) : Option Key :=
  if h : slot < 16 then some ⟨slot, h⟩ else none

def all : List Key := List.finRange 16

def legend (key : Key) : Char :=
  (Nat.digitChar key.val).toUpper

end Key

structure KeyTable where
  down : Vector Bool 16
deriving DecidableEq, Repr

namespace KeyTable

def released : KeyTable := ⟨Vector.replicate 16 false⟩

instance : Inhabited KeyTable := ⟨released⟩

def isDown (table : KeyTable) (key : Key) : Bool := table.down[key]

/-- Put `key` down or release it. Setting a key to the state it is in changes nothing. -/
def set (table : KeyTable) (key : Key) (pressed : Bool) : KeyTable :=
  ⟨table.down.set key pressed⟩

def held (table : KeyTable) : List Key := Key.all.filter table.isDown

def lowest? (table : KeyTable) : Option Key := Key.all.find? table.isDown

theorem isDown_released (key : Key) : released.isDown key = false := by
  simp [released, isDown]

/-- A key that is set changes no other key. -/
theorem isDown_set (table : KeyTable) (key other : Key) (pressed : Bool) :
    (table.set key pressed).isDown other = if key = other then pressed else table.isDown other := by
  simp [isDown, set, Vector.getElem_set, Fin.ext_iff]

end KeyTable

end Chip8Console
