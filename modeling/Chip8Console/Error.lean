/-!
What can go wrong: why the host refused an operation, and why a step of the console failed. Each has its
wording here and nowhere else.
-/
namespace Chip8Console

inductive Cause where
  | notFound
  | notADirectory
  | isADirectory
  | nameTooLong
  | invalidUtf8
  | nulInName
  | noSuchRom
  /-- a reason given by the host in its own words -/
  | other (text : String)
deriving DecidableEq, Repr

namespace Cause

def message : Cause → String
  | notFound => "No such file or directory (os error 2)"
  | notADirectory => "Not a directory (os error 20)"
  | isADirectory => "Is a directory (os error 21)"
  | nameTooLong => "File name too long (os error 36)"
  | invalidUtf8 => "stream did not contain valid UTF-8"
  | nulInName => "file name contained an unexpected NUL byte"
  | noSuchRom => "no such ROM"
  | other text => text

end Cause

inductive ConsoleError where
  /-- the image called `name` could not be read -/
  | romFetch (name : String) (cause : Cause)
  | romEmpty (name : String)
  | romTooLarge (size maxSize : Nat)
  /-- no catalog entry has this number -/
  | unknownSlot (slot : Nat)
  /-- the terminal refused an operation -/
  | terminal (cause : Cause)
deriving DecidableEq, Repr

namespace ConsoleError

def message : ConsoleError → String
  | romFetch name cause => "could not fetch ROM `" ++ name ++ "`: " ++ cause.message
  | romEmpty name => "ROM `" ++ name ++ "` is empty"
  | romTooLarge size maxSize =>
    "ROM is too large (" ++ toString size ++ " bytes), max size is " ++ toString maxSize ++ " bytes"
  | unknownSlot slot => "no ROM in catalog slot " ++ toString slot
  | terminal cause => "terminal error: " ++ cause.message

end ConsoleError

end Chip8Console
