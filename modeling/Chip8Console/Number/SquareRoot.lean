/-!
The integer square root, digit by digit in base four.
-/
namespace Chip8Console.Number

/-- The greatest `r` with `r * r ≤ n`. -/
def squareRoot (n : Nat) : Nat :=
  if h : n = 0 then 0
  else
    let r := 2 * squareRoot (n / 4)
    if (r + 1) * (r + 1) ≤ n then r + 1 else r
termination_by n
decreasing_by omega

/-- The square of the root is not above the number. -/
theorem squareRoot_le (n : Nat) : squareRoot n * squareRoot n ≤ n := by
  induction n using Nat.strongRecOn with
  | ind n ih =>
    rw [squareRoot]
    split
    · omega
    · have hq := ih (n / 4) (by omega)
      simp only
      split
      · assumption
      · have : 2 * squareRoot (n / 4) * (2 * squareRoot (n / 4))
            = 4 * (squareRoot (n / 4) * squareRoot (n / 4)) := by
          simp only [Nat.mul_left_comm, Nat.mul_comm]
          omega
        omega

end Chip8Console.Number
