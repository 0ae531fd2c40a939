import Chip8Console.CommandLine.Argument
import Chip8Console.CommandLine.Value

/-!
A command line read from left to right. The first fault decides. A value in an argument of its own is
looked at only when the next setting or the end is reached, so that an argument that is not understood
at all is reported before a bad value in front of it.
-/
namespace Chip8Console

/-- A setting that was named, with its value once that has come. -/
structure PendingSetting where
  setting : Setting
  value : Option String
deriving DecidableEq, Repr

structure Reading where
  configuration : Configuration := {}
  /-- the settings taken in so far -/
  given : List Setting := []
  /-- named, and not looked at yet -/
  pending : Option PendingSetting := none
  /-- set once no argument is a setting any more -/
  separated : Bool := false
deriving DecidableEq, Repr

namespace Reading

/-- Take in a setting. A missing value counts before a repetition, and that before a bad value. -/
def take (r : Reading) (p : PendingSetting) : Except UsageError Reading :=
  match p.value with
  | none => .error (.missingValue p.setting)
  | some text =>
    if p.setting ∈ r.given then .error (.conflict p.setting p.setting)
    else do
      let configuration ← p.setting.assign text r.configuration
      return { r with configuration, given := p.setting :: r.given }

def settle (r : Reading) : Except UsageError Reading :=
  match r.pending with
  | none => .ok r
  | some p => { r with pending := none }.take p

/-- A request for something else than a run, which is heard once all before it is in order. -/
def instead (r : Reading) (wanted : UsageError) : Except UsageError Reading :=
  r.settle.bind fun _ => .error wanted

def insteadLong (r : Reading) (wanted : UsageError) (name : String) :
    Option String → Except UsageError Reading
  | none => r.instead wanted
  | some value => .error (.unwantedValue ("--" ++ name) value)

/-- Read a setting by its name. A value in the same argument is looked at right away. -/
def named (r : Reading) (s : Setting) (value : Option String) : Except UsageError Reading :=
  match s.valueName?, value with
  | none, some value => .error (.unwantedValue s.form value)
  | none, none => r.settle.bind fun r => r.take ⟨s, some ""⟩
  | some _, some _ => r.settle.bind fun r => r.take ⟨s, value⟩
  | some _, none => r.settle.map fun r => { r with pending := some ⟨s, none⟩ }

def next (r : Reading) (text : String) : Except UsageError Reading :=
  if r.separated then .error (.unknownArgument text)
  else match Argument.ofString text with
    | .separator => .ok { r with separated := true }
    | .long "help" value => r.insteadLong .helpWanted "help" value
    | .long "version" value => r.insteadLong .versionWanted "version" value
    | .long name value =>
      match Setting.ofName? name with
      | some s => r.named s value
      | none => .error (.unknownArgument ("--" ++ name))
    | .short 'h' => r.instead .helpWanted
    | .short 'V' => r.instead .versionWanted
    | .short letter => .error (.unknownArgument ("-" ++ String.singleton letter))
    | .plain =>
      match r.pending with
      | some ⟨s, none⟩ => .ok { r with pending := some ⟨s, some text⟩ }
      | _ => .error (.unknownArgument text)

/-- The configuration at the end of the command line. An image is named in one way only. -/
def finish (r : Reading) : Except UsageError Configuration := do
  let r ← r.settle
  if Setting.rom ∈ r.given ∧ Setting.file ∈ r.given then .error (.conflict .rom .file)
  else return r.configuration

end Reading

def Configuration.ofArguments (arguments : List String) : Except UsageError Configuration := do
  let r ← arguments.foldlM Reading.next {}
  r.finish

end Chip8Console
