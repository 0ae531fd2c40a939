import Chip8Console.Number.SquareRoot

/-!
Binary floating point numbers as bits, and exact values rounded to them: to the nearest number of the
format, a tie to the one whose last bit is zero, and past the greatest one to infinity. Only
magnitudes are rounded here; a sign is a bit in front.
-/
namespace Chip8Console.Number

/-- How the bits of a magnitude are divided: the exponent first, then the fraction. -/
structure BinaryFormat where
  exponentBits : Nat
  fractionBits : Nat
deriving DecidableEq, Repr

def single : BinaryFormat := ⟨8, 23⟩

def double : BinaryFormat := ⟨11, 52⟩

/-- `num / den` to the nearest natural number, a tie to the even one. -/
def roundQuotient (num den : Nat) : Nat :=
  let q := num / den
  let twice := 2 * (num % den)
  if twice < den ∨ (twice = den ∧ q % 2 = 0) then q else q + 1

/-- The greatest `e` with `2 ^ e ≤ num / den`, for positive `num` and `den`. -/
def logQuotient (num den : Nat) : Int :=
  let e : Int := (Nat.log2 num : Int) - (Nat.log2 den : Int)
  if num * Nat.pow 2 (-e).toNat < den * Nat.pow 2 e.toNat then e - 1 else e

namespace BinaryFormat

def signBit (f : BinaryFormat) : Nat := Nat.pow 2 (f.exponentBits + f.fractionBits)

def infinity (f : BinaryFormat) : Nat := (Nat.pow 2 f.exponentBits - 1) * Nat.pow 2 f.fractionBits

def quietNaN (f : BinaryFormat) : Nat := f.infinity + Nat.pow 2 (f.fractionBits - 1)

/-- The exponent of the last place of the smallest numbers. -/
def leastExponent (f : BinaryFormat) : Int :=
  2 - (Nat.pow 2 (f.exponentBits - 1) : Int) - (f.fractionBits : Int)

/-- The exponent of the last place of the numbers from `2 ^ e` on. -/
def lastPlace (f : BinaryFormat) (e : Int) : Int := max (e - f.fractionBits) f.leastExponent

/-- The bits of `q * 2 ^ place`, where `q` has at most one bit more than the fraction, or fills that
up to the next power of two. Counting up from the smallest number passes from one exponent to the next
without a gap. -/
def pack (f : BinaryFormat) (place : Int) (q : Nat) : Nat :=
  min ((place - f.leastExponent).toNat * Nat.pow 2 f.fractionBits + q) f.infinity

/-- The bits of the number nearest to `num / den`, for a positive `den`. -/
def ofQuotient (f : BinaryFormat) (num den : Nat) : Nat :=
  if num = 0 then 0
  else
    let place := f.lastPlace (logQuotient num den)
    f.pack place (roundQuotient (num * Nat.pow 2 (-place).toNat) (den * Nat.pow 2 place.toNat))

/-- The finite value of bits without sign, as a quotient with a positive denominator. -/
def quotient (f : BinaryFormat) (bits : Nat) : Nat × Nat :=
  let exponent := bits / Nat.pow 2 f.fractionBits
  let fraction := bits % Nat.pow 2 f.fractionBits
  let (q, place) : Nat × Int :=
    if exponent = 0 then (fraction, f.leastExponent)
    else (Nat.pow 2 f.fractionBits + fraction, f.leastExponent + (exponent : Int) - 1)
  (q * Nat.pow 2 place.toNat, Nat.pow 2 (-place).toNat)

/-- The bits of the number nearest to the square root of `num / den`, for a positive `den`. The root of
a number of the format is never halfway between two of them. -/
def ofRoot (f : BinaryFormat) (num den : Nat) : Nat :=
  if num = 0 then 0
  else
    let place := f.lastPlace ((logQuotient num den).fdiv 2)
    let top := num * Nat.pow 4 (-place).toNat
    let bottom := den * Nat.pow 4 place.toNat
    let q := squareRoot (top / bottom)
    f.pack place (if (2 * q + 1) * (2 * q + 1) * bottom < 4 * top then q + 1 else q)

def floor (f : BinaryFormat) (bits : Nat) : Nat :=
  let (num, den) := f.quotient bits
  num / den

def div (f : BinaryFormat) (a b : Nat) : Nat :=
  let (an, ad) := f.quotient a
  let (bn, bd) := f.quotient b
  f.ofQuotient (an * bd) (ad * bn)

def mul (f : BinaryFormat) (a b : Nat) : Nat :=
  let (an, ad) := f.quotient a
  let (bn, bd) := f.quotient b
  f.ofQuotient (an * bn) (ad * bd)

def sqrt (f : BinaryFormat) (a : Nat) : Nat :=
  let (num, den) := f.quotient a
  f.ofRoot num den

def ofNat (f : BinaryFormat) (n : Nat) : Nat := f.ofQuotient n 1

/-- Natural numbers below this one are numbers of the format. -/
def exactLimit (f : BinaryFormat) : Nat := Nat.pow 2 (f.fractionBits + 1)

/-- The natural number below the number nearest to `n`. Past `exactLimit` that need not be `n`, though
the numbers of the format are whole there. -/
def nearestNat (f : BinaryFormat) (n : Nat) : Nat :=
  if n < f.exactLimit then n else f.floor (f.ofNat n)

/-- The natural number below `a * b / c`, for a positive `c`, where the product is rounded before it is
divided. While product and divisor together stay below `exactLimit` the quotient keeps further from the
whole number above it than rounding moves it, so that rounding does not show. -/
def floorScaled (f : BinaryFormat) (a b c : Nat) : Nat :=
  if a * b + c < f.exactLimit then a * b / c
  else f.floor (f.div (f.mul (f.ofNat a) (f.ofNat b)) (f.ofNat c))

/-- A power of ten that no number of the formats in use reaches. -/
def farDecimal : Int := 400

/-- The number nearest to `digits * 10 ^ exponent`. Magnitudes far outside the format's range are
decided by their length, without being written out. -/
def ofDecimal (f : BinaryFormat) (digits : Nat) (exponent : Int) : Nat :=
  if digits = 0 then 0
  else
    let length : Int := (Nat.toDigits 10 digits).length
    if exponent + length > farDecimal then f.infinity
    else if exponent + length < -farDecimal then 0
    else f.ofQuotient (digits * Nat.pow 10 exponent.toNat) (Nat.pow 10 (-exponent).toNat)

def isFinite (f : BinaryFormat) (bits : Nat) : Bool := decide (bits % f.signBit < f.infinity)

def isPositive (f : BinaryFormat) (bits : Nat) : Bool := decide (0 < bits ∧ bits ≤ f.infinity)

/-- Bits without sign, of a number or infinity, brought to another format. -/
def convert (source target : BinaryFormat) (bits : Nat) : Nat :=
  if bits = source.infinity then target.infinity
  else
    let (num, den) := source.quotient bits
    target.ofQuotient num den

end BinaryFormat

end Chip8Console.Number
