/-!
Hexadecimal text: of natural numbers, as the shortest numeral or filled up with leading zeros, and of
bytes, two digits each.
-/
namespace Chip8Console.Text

def hex (n : Nat) : String :=
  String.ofList (Nat.toDigits 16 n)

def hexPadded (width n : Nat) : String :=
  let digits := Nat.toDigits 16 n
  String.ofList (List.replicate (width - digits.length) '0' ++ digits)

def hexBytes (bytes : List UInt8) : String :=
  String.ofList (bytes.flatMap fun b => (hexPadded 2 b.toNat).toList)

def digitValue? (c : Char) : Option Nat :=
  if c.isDigit then some (c.toNat - '0'.toNat)
  else if 'a' ≤ c ∧ c ≤ 'f' then some (c.toNat - 'a'.toNat + 10)
  else none

def bytesOfHex? : List Char → Option (List UInt8)
  | [] => some []
  | [_] => none
  | high :: low :: rest => do
    let byte := UInt8.ofNat ((← digitValue? high) * 16 + (← digitValue? low))
    return byte :: (← bytesOfHex? rest)

end Chip8Console.Text
