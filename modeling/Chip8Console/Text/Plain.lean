/-!
Text without what would steer a terminal: control characters other than white space and escape
sequences are left out. A sequence begins with the escape character. Most end with the first letter or
symbol that can end them; a command ends with a bell, and a string with the byte that terminates it. The
next escape character ends each of them.
-/
namespace Chip8Console.Text

/-- Where in an escape sequence a character stands. -/
inductive Steering where
  /-- in none -/
  | outside
  /-- right behind the escape character -/
  | escape
  /-- behind a space or one of the symbols that follow it -/
  | intermediate
  /-- in the parameters of a control sequence -/
  | parameters
  /-- in the text of a command -/
  | command
  /-- right behind what introduces a string for a device -/
  | deviceStart
  /-- in the parameters of a string for a device -/
  | deviceParameters
  /-- in front of the text of a string for a device, behind a space or one of the symbols that follow
  it -/
  | deviceIntermediate
  /-- in the text of a string -/
  | text
deriving DecidableEq, Repr

def isBetween (first last : Nat) (c : Char) : Bool := decide (first ≤ c.toNat ∧ c.toNat ≤ last)

/-- White space that a terminal takes for such: tab, line feed, form feed and carriage return. -/
def isSpacing (c : Char) : Bool := [0x09, 0x0A, 0x0C, 0x0D].contains c.toNat

/-- Whether the byte that terminates a string is among those that write a character in UTF-8. -/
def isTerminator (c : Char) : Bool := (String.utf8EncodeChar c).contains 0x9C

namespace Steering

/-- Whether a character is shown. White space is, except in what a command or a string carries. -/
def shows : Steering → Char → Bool
  | outside, c => isSpacing c || (decide (0x20 ≤ c.toNat) && c.toNat != 0x7F)
  | escape, c | intermediate, c | parameters, c => isSpacing c
  | _, _ => false

/-- Where the next character stands, if one behind the escape character is not shown. -/
def introduced (c : Char) : Steering :=
  if c = '[' then parameters
  else if c = ']' then command
  else if c = 'P' then deviceStart
  else if c = 'X' ∨ c = '^' ∨ c = '_' then text
  else if isBetween 0x20 0x2F c then intermediate
  else if isBetween 0x30 0x7E c then outside
  else escape

/-- Where the next character stands, behind one that is not shown. Cancel and substitute end every
sequence; an escape character begins another one. -/
def next (s : Steering) (c : Char) : Steering :=
  if c.toNat = 0x1B then escape
  else if c.toNat = 0x18 ∨ c.toNat = 0x1A then outside
  else match s with
    | outside => outside
    | escape => introduced c
    | intermediate => if isBetween 0x30 0x7E c then outside else intermediate
    | parameters => if isBetween 0x40 0x7E c then outside else parameters
    | command => if c.toNat = 0x07 then outside else command
    | deviceStart =>
      if isBetween 0x20 0x2F c then deviceIntermediate
      else if isBetween 0x30 0x3F c then deviceParameters
      else if isBetween 0x40 0x7E c then text
      else deviceStart
    | deviceParameters =>
      if isBetween 0x20 0x2F c then deviceIntermediate
      else if isBetween 0x3C 0x7E c then text
      else deviceParameters
    | deviceIntermediate => if isBetween 0x30 0x7E c then text else deviceIntermediate
    | text => if isTerminator c then outside else text

end Steering

/-- The characters shown. One that is shown breaks off the sequence it stands in. -/
def shown : Steering → List Char → List Char
  | _, [] => []
  | s, c :: rest => if s.shows c then c :: shown .outside rest else shown (s.next c) rest

def plain (text : String) : String := String.ofList (shown .outside text.toList)

end Chip8Console.Text
