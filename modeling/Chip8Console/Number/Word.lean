/-!
Natural numbers that are kept in words of 64 bits. Arithmetic on them is checked: a result that is no
word ends the program, and so does a remainder by zero.
-/
namespace Chip8Console

/-- Checked arithmetic that left its range. Such a fault ends the program at once. -/
inductive ArithmeticFault where
  | addition
  | subtraction
  | multiplication
  | remainderByZero
deriving DecidableEq, Repr

def ArithmeticFault.message : ArithmeticFault → String
  | addition => "attempt to add with overflow"
  | subtraction => "attempt to subtract with overflow"
  | multiplication => "attempt to multiply with overflow"
  | remainderByZero => "attempt to calculate the remainder with a divisor of zero"

/-- What follows a computation is reached only if that computation met no fault. -/
theorem ArithmeticFault.bind_eq_ok_iff {α β : Type} {first : Except ArithmeticFault α}
    {next : α → Except ArithmeticFault β} {b : β} :
    (first >>= next) = .ok b ↔ ∃ a, first = .ok a ∧ next a = .ok b := by
  cases first with
  | error fault => simp [bind, Except.bind]
  | ok a => simp [bind, Except.bind]

/-- Two computations in a row meet no fault if neither of them does. -/
theorem ArithmeticFault.bind_isOk {α β : Type} {first : Except ArithmeticFault α}
    {next : α → Except ArithmeticFault β} {a : α} (h : first = .ok a) (hnext : ∃ b, next a = .ok b) :
    ∃ b, (first >>= next) = .ok b := by
  rw [h]
  exact hnext

namespace Word

def limit : Nat := 0x10000000000000000

def add (a b : Nat) : Except ArithmeticFault Nat :=
  if a + b < limit then .ok (a + b) else .error .addition

def multiply (a b : Nat) : Except ArithmeticFault Nat :=
  if a * b < limit then .ok (a * b) else .error .multiplication

/-- The word before a word. Zero has none. -/
def before (a : Nat) : Except ArithmeticFault Nat :=
  if a = 0 then .error .subtraction else .ok (a - 1)

/-- Two words have a sum exactly if it is a word. -/
theorem add_eq_ok_iff (a b c : Nat) : add a b = .ok c ↔ a + b = c ∧ c < limit := by
  unfold add
  split <;> simp <;> omega

/-- Two words have a product exactly if it is a word. -/
theorem multiply_eq_ok_iff (a b c : Nat) : multiply a b = .ok c ↔ a * b = c ∧ c < limit := by
  unfold multiply
  split
  · simp only [Except.ok.injEq]
    constructor
    · rintro rfl; exact ⟨rfl, by assumption⟩
    · exact fun h => h.1
  · simp only [reduceCtorEq, false_iff, not_and]
    rintro rfl
    assumption

end Word

end Chip8Console
