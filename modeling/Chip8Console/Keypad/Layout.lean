import Chip8Console.Keypad.Key

/-!
The host keyboard laid over the keypad. A host character reaches the keypad only if it has a place
in the layout, and only a change of its key counts.
-/
namespace Chip8Console

/-- The key under a host character. Letters match in either case; all other characters match only
themselves, and most have no key. -/
def Key.ofChar? (c : Char) : Option Key :=
  match c.toLower with
  | 'x' => some 0x0
  | '1' => some 0x1
  | '2' => some 0x2
  | '3' => some 0x3
  | 'q' => some 0x4
  | 'w' => some 0x5
  | 'e' => some 0x6
  | 'a' => some 0x7
  | 's' => some 0x8
  | 'd' => some 0x9
  | 'z' => some 0xA
  | 'c' => some 0xB
  | '4' => some 0xC
  | 'r' => some 0xD
  | 'f' => some 0xE
  | 'v' => some 0xF
  | _ => none

def Key.host (key : Key) : Char :=
  #v['x', '1', '2', '3', 'q', 'w', 'e', 'a', 's', 'd', 'z', 'c', '4', 'r', 'f', 'v'].get key

/-- A character lies over a key exactly if it is the host character of that key in either case. -/
theorem Key.ofChar?_eq_some_iff {c : Char} {key : Key} :
    ofChar? c = some key ↔ c.toLower = key.host := by
  constructor
  · intro h
    unfold ofChar? at h
    split at h <;> cases h <;> assumption
  · intro h
    unfold ofChar?
    rw [h]
    clear h
    revert key
    decide

namespace KeyTable

def change (table : KeyTable) (key : Key) (pressed : Bool) : Bool × KeyTable :=
  (table.isDown key != pressed, table.set key pressed)

/-- A host character went down or up. The key is given exactly if the character has one and its
state changed; repeats and characters outside the layout leave the table alone. -/
def hostKey (table : KeyTable) (c : Char) (pressed : Bool) : Option Key × KeyTable :=
  match Key.ofChar? c with
  | none => (none, table)
  | some key =>
    let (changed, after) := table.change key pressed
    (if changed then some key else none, after)

/-- A host character changes the key under it and no other. -/
theorem isDown_hostKey (table : KeyTable) (c : Char) (pressed : Bool) (key : Key) :
    (table.hostKey c pressed).2.isDown key =
      if c.toLower = key.host then pressed else table.isDown key := by
  simp only [← Key.ofChar?_eq_some_iff, hostKey]
  cases Key.ofChar? c with
  | none => simp
  | some other => simp [change, isDown_set]

/-- A key is given exactly if it lies under the character and its state changed. -/
theorem hostKey_eq_some_iff {table : KeyTable} {c : Char} {pressed : Bool} {key : Key} :
    (table.hostKey c pressed).1 = some key ↔ c.toLower = key.host ∧ table.isDown key ≠ pressed := by
  simp only [← Key.ofChar?_eq_some_iff, hostKey]
  cases Key.ofChar? c with
  | none => simp
  | some other =>
    simp only [change, bne_iff_ne, Option.ite_none_right_eq_some, Option.some.injEq]
    constructor
    · rintro ⟨changed, rfl⟩
      exact ⟨rfl, changed⟩
    · rintro ⟨rfl, changed⟩
      exact ⟨changed, rfl⟩

end KeyTable

end Chip8Console
