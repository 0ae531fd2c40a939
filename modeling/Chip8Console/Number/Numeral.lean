import Chip8Console.Number.BinaryFloat

/-!
Numbers as a user types them. Whole numbers may have a sign in front and zeros at the start. Floating
point numbers may have a fraction and an exponent, or be one of the words for infinity and for what is
no number. Every text that is no number has a reason why.
-/
namespace Chip8Console.Number

inductive NumeralFault where
  | emptyInteger
  | badDigit
  /-- above the greatest number -/
  | tooLarge
  /-- below the least number -/
  | tooSmall
  | emptyFloat
  | badFloat
deriving DecidableEq, Repr

def NumeralFault.message : NumeralFault → String
  | emptyInteger => "cannot parse integer from empty string"
  | badDigit => "invalid digit found in string"
  | tooLarge => "number too large to fit in target type"
  | tooSmall => "number too small to fit in target type"
  | emptyFloat => "cannot parse float from empty string"
  | badFloat => "invalid float literal"

def digitValue (c : Char) : Nat := c.toNat - '0'.toNat

/-- The number that digits spell after those of `before`. The first character that is no digit, or that
makes the number exceed `limit`, decides why there is none. -/
def readDigits (limit : Nat) (beyond : NumeralFault) (before : Nat) :
    List Char → Except NumeralFault Nat
  | [] => .ok before
  | c :: rest =>
    if !c.isDigit then .error .badDigit
    else if limit < 10 * before + digitValue c then .error beyond
    else readDigits limit beyond (10 * before + digitValue c) rest

def signBit64 : Nat := 0x8000000000000000

def readNatural (limit : Nat) : List Char → Except NumeralFault Nat
  | [] => .error .emptyInteger
  | ['+'] => .error .badDigit
  | '+' :: digits => readDigits limit .tooLarge 0 digits
  | digits => readDigits limit .tooLarge 0 digits

def readInteger : List Char → Except NumeralFault Int
  | [] => .error .emptyInteger
  | ['+'] | ['-'] => .error .badDigit
  | '-' :: digits => (readDigits signBit64 .tooSmall 0 digits).map fun n => -(n : Int)
  | '+' :: digits => (readDigits (signBit64 - 1) .tooLarge 0 digits).map Int.ofNat
  | digits => (readDigits (signBit64 - 1) .tooLarge 0 digits).map Int.ofNat

def digitsValue (digits : List Char) : Nat :=
  digits.foldl (fun before c => 10 * before + digitValue c) 0

/-- The exponent that ends a decimal number, zero if it has none. -/
def exponent? : List Char → Option Int
  | [] => some 0
  | mark :: rest =>
    let (negative, digits) := match rest with
      | '-' :: digits => (true, digits)
      | '+' :: digits => (false, digits)
      | digits => (false, digits)
    if mark.toLower ≠ 'e' ∨ digits.isEmpty ∨ !digits.all Char.isDigit then none
    else some (if negative then -(digitsValue digits : Int) else digitsValue digits)

namespace BinaryFormat

/-- The number nearest to a decimal number without sign. A digit must stand in front of the point or
behind it. -/
def ofDecimalText? (f : BinaryFormat) (text : List Char) : Option Nat :=
  let whole := text.takeWhile Char.isDigit
  let (fraction, rest) := match text.drop whole.length with
    | '.' :: rest => (rest.takeWhile Char.isDigit, rest.dropWhile Char.isDigit)
    | rest => ([], rest)
  if whole.isEmpty && fraction.isEmpty then none
  else (exponent? rest).map fun exponent =>
    f.ofDecimal (digitsValue (whole ++ fraction)) (exponent - fraction.length)

def ofUnsignedText? (f : BinaryFormat) (text : List Char) : Option Nat :=
  let word := String.ofList (text.map Char.toLower)
  if word = "inf" ∨ word = "infinity" then some f.infinity
  else if word = "nan" then some f.quietNaN
  else f.ofDecimalText? text

def read (f : BinaryFormat) (text : List Char) : Except NumeralFault Nat :=
  let bits? := match text with
    | '-' :: magnitude => (f.ofUnsignedText? magnitude).map (f.signBit + ·)
    | '+' :: magnitude => f.ofUnsignedText? magnitude
    | magnitude => f.ofUnsignedText? magnitude
  match text, bits? with
  | [], _ => .error .emptyFloat
  | _, some bits => .ok bits
  | _, none => .error .badFloat

end BinaryFormat

end Chip8Console.Number
