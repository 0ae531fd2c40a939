import Chip8Console.CommandLine.Help
import Chip8Console.Number.Numeral
import Chip8Console.Text.Plain

/-!
Why a command line does not lead to a run: the user asked for help, or something is wrong with it. What
the user typed is repeated without what would steer the terminal.
-/
namespace Chip8Console

inductive ValueFault where
  | numeral (fault : Number.NumeralFault)
  | outOfRange (value : Int) (least greatest : Nat)
  /-- a number that is no rate of refreshes, as it was typed -/
  | unusableRate (text : String)
deriving DecidableEq, Repr

def ValueFault.message : ValueFault → String
  | numeral fault => fault.message
  | outOfRange value least greatest =>
    toString value ++ " is not in " ++ toString least ++ "..=" ++ toString greatest
  | unusableRate text => text ++ " is not a usable refresh rate"

inductive UsageError where
  | helpWanted
  | versionWanted
  /-- an argument that is no setting, or a value that no setting waits for -/
  | unknownArgument (text : String)
  /-- a setting given twice, or beside one that excludes it -/
  | conflict (given : Setting) (other : Setting)
  /-- a value for the setting that has none -/
  | unwantedValue (form value : String)
  | missingValue (setting : Setting)
  | invalidValue (setting : Setting) (value : String) (fault : ValueFault)
deriving DecidableEq, Repr

def UsageError.message : UsageError → String
  | helpWanted => Configuration.help
  | versionWanted => Configuration.version
  | unknownArgument text => "error: unexpected argument '" ++ Text.plain text ++ "' found"
  | conflict given other =>
    if given = other then
      "error: the argument '" ++ given.form ++ "' cannot be used multiple times"
    else "error: the argument '" ++ given.form ++ "' cannot be used with '" ++ other.form ++ "'"
  | unwantedValue form value =>
    "error: unexpected value '" ++ Text.plain value ++ "' for '" ++ form
      ++ "' found; no more were expected"
  | missingValue setting =>
    "error: a value is required for '" ++ setting.form ++ "' but none was supplied"
  | invalidValue setting value fault =>
    "error: invalid value '" ++ Text.plain value ++ "' for '" ++ setting.form ++ "': "
      ++ fault.message

end Chip8Console
