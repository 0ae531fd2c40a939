import Chip8Console.Number.BinaryFloat
import Chip8Console.Sound.Tone
import Mathlib.Algebra.Order.Field.Basic
import Mathlib.Algebra.Order.Ring.Rat
import Mathlib.Data.Nat.Bitwise
import Mathlib.Tactic.Positivity

/-!
Volumes as the numbers that their bits stand for. Whether a volume is heard is read off its bits, and
agrees with the sign of the number.
-/
namespace Chip8Console

private theorem Number.BinaryFormat.quotient_num_eq_zero_iff {f : BinaryFormat} {bits : Nat} :
    (f.quotient bits).1 = 0 ↔ bits = 0 := by
  have scale (n : Nat) : Nat.pow 2 n ≠ 0 := (Nat.pow_pos (by decide)).ne'
  have whole := Nat.div_add_mod bits (Nat.pow 2 f.fractionBits)
  simp only [quotient]
  split
  · next small =>
    rw [small, Nat.mul_zero, Nat.zero_add] at whole
    rw [mul_eq_zero_iff_right (scale _), whole]
  · next large =>
    have positive : Nat.pow 2 f.fractionBits + bits % Nat.pow 2 f.fractionBits ≠ 0 :=
      fun none => scale _ (Nat.add_eq_zero_iff.mp none).1
    rw [mul_eq_zero_iff_right (scale _)]
    refine iff_of_false positive ?_
    rintro rfl
    exact large (Nat.zero_div _)

private theorem Number.BinaryFormat.quotient_den_pos (f : BinaryFormat) (bits : Nat) :
    0 < (f.quotient bits).2 := Nat.pow_pos (by decide)

namespace Gain

def isNegative (g : Gain) : Bool := decide (Number.single.signBit ≤ g.bits.toNat)

/-- The number that the bits stand for, in which infinity counts as the power of two that comes next. -/
def value (g : Gain) : ℚ :=
  let (num, den) := Number.single.quotient (g.bits.toNat % Number.single.signBit)
  let magnitude : ℚ := num / den
  if g.isNegative then -magnitude else magnitude

private theorem magnitude_eq_zero_iff (g : Gain) :
    (g.bits &&& 0x7FFFFFFF) = 0 ↔ g.bits.toNat % Number.single.signBit = 0 := by
  rw [← UInt32.toNat_inj, UInt32.toNat_and]
  exact Iff.of_eq (congrArg (· = 0) (Nat.and_two_pow_sub_one_eq_mod g.bits.toNat 31))

private theorem sign_ne_zero_iff (g : Gain) : (g.bits &&& 0x80000000) ≠ 0 ↔ g.isNegative = true := by
  have bound : g.bits.toNat < 2 ^ 32 := g.bits.toNat_lt
  have top : g.bits.toNat.testBit 31 = decide (2 ^ 31 ≤ g.bits.toNat) := by
    rw [Nat.testBit_eq_decide_div_mod_eq]
    exact decide_eq_decide.mpr (by omega)
  rw [ne_eq, ← UInt32.toNat_inj, UInt32.toNat_and]
  change ¬ (g.bits.toNat &&& 2 ^ 31) = 0 ↔ decide (2 ^ 31 ≤ g.bits.toNat) = true
  rw [Nat.and_two_pow, top]
  cases decide (2 ^ 31 ≤ g.bits.toNat) <;> simp

private theorem value_nonpos_iff (g : Gain) :
    g.value ≤ 0 ↔ g.isNegative = true ∨ g.bits.toNat % Number.single.signBit = 0 := by
  have den := Number.single.quotient_den_pos (g.bits.toNat % Number.single.signBit)
  have num : (Number.single.quotient (g.bits.toNat % Number.single.signBit)).1 = 0 ↔
      g.bits.toNat % Number.single.signBit = 0 := Number.BinaryFormat.quotient_num_eq_zero_iff
  simp only [value]
  split
  · next negative =>
    refine iff_of_true ?_ (.inl negative)
    rw [neg_nonpos]
    positivity
  · next positive =>
    rw [div_nonpos_iff]
    simp [positive, ← num, den.ne']

/-- A volume that is a number is silent exactly if the number is not above zero. -/
theorem isSilent_iff {g : Gain} (number : g.isNaN = false) : g.isSilent = true ↔ g.value ≤ 0 := by
  rw [value_nonpos_iff, isSilent, number, Bool.or_eq_true, beq_iff_eq, magnitude_eq_zero_iff,
    ← sign_ne_zero_iff]
  simp [or_comm]

end Gain
end Chip8Console
