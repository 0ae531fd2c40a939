import Chip8Console.Number.Word

/-!
Releases for hosts that only report presses. A key counts as released once it has been quiet for a
fixed number of refreshes.
-/
namespace Chip8Console

/-- Which keys are held, and until which refresh. -/
structure ReleaseLatch where
  /-- for how many refreshes a press holds its key -/
  hold : Nat
  /-- the held keys, each once, with the refresh at which its hold runs out -/
  held : List (Char × Nat) := []
deriving DecidableEq, Repr

namespace ReleaseLatch

/-- A latch without held keys. A hold of zero counts as one. -/
def ofHold (hold : Nat) : ReleaseLatch := { hold := max hold 1 }

def due? (l : ReleaseLatch) (c : Char) : Option Nat := l.held.lookup c

def isHeld (l : ReleaseLatch) (c : Char) : Bool := (l.due? c).isSome

def erase (l : ReleaseLatch) (c : Char) : ReleaseLatch :=
  { l with held := l.held.filter fun entry => entry.1 != c }

/-- A press or repeat of `c` at refresh `now` holds it anew, telling whether it was not held before.
Refreshes are counted in words, and the end of the hold must be one. -/
def press (l : ReleaseLatch) (c : Char) (now : Nat) : Except ArithmeticFault (Bool × ReleaseLatch) :=
  (Word.add now l.hold).map fun due =>
    (!l.isHeld c, { l with held := (c, due) :: (l.erase c).held })

def release (l : ReleaseLatch) (c : Char) : Bool × ReleaseLatch := (l.isHeld c, l.erase c)

/-- Release the keys whose hold has run out at refresh `now`, in ascending order. -/
def expire (l : ReleaseLatch) (now : Nat) : List Char × ReleaseLatch :=
  let (out, kept) := l.held.partition fun entry => decide (entry.2 ≤ now)
  ((out.map Prod.fst).mergeSort fun a b => decide (a ≤ b), { l with held := kept })

/-- Letting go of a key leaves the holds of all others as they are. -/
theorem due?_erase (l : ReleaseLatch) (c other : Char) :
    (l.erase c).due? other = if c = other then none else l.due? other := by
  simp only [erase, due?]
  induction l.held with
  | nil => simp
  | cons entry rest ih =>
    obtain ⟨k, t⟩ := entry
    by_cases hk : k = c
    · subst hk
      by_cases ho : k = other
      · simpa [ho] using ih
      · have hb : (other == k) = false := by simpa using Ne.symm ho
        simpa [ho, hb, List.lookup_cons] using ih
    · rw [List.filter_cons_of_pos (by simpa using hk), List.lookup_cons, List.lookup_cons, ih]
      by_cases ho : other = k
      · subst ho
        simp [Ne.symm hk]
      · have hb : (other == k) = false := by simpa using ho
        simp [hb]

end ReleaseLatch

end Chip8Console
