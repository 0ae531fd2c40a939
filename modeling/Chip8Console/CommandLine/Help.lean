import Chip8Console.CommandLine.Configuration

/-!
What the command line says of itself: its version, and its settings with what each is for.
-/
namespace Chip8Console

namespace Setting

def explanation : Setting → String
  | roms => "Directory of .ch8 ROMs; F1-F12 pick from it"
  | rom => "ROM to start with, from the ROM directory"
  | file => "Run a ROM file from anywhere"
  | cyclesPerTick => "Instructions run per display refresh"
  | refreshRate => "Display refreshes per second"
  | scale => "Terminal cells per CHIP-8 pixel"
  | toneHz => "Beep pitch in Hz"
  | toneGain => "Beep gain; 0 is silent"
  | toneMs => "Beep length in milliseconds"
  | mute => "No sound at all"
  | keyHold => "Refreshes a key stays down when the terminal can't report releases"

def default? : Setting → Option String
  | roms => some "roms"
  | cyclesPerTick => some "10"
  | refreshRate => some "60"
  | scale => some "1"
  | toneHz => some "2093"
  | toneGain => some "1"
  | toneMs => some "50"
  | keyHold => some "6"
  | rom | file | mute => none

def helpLine (width : Nat) (s : Setting) : String :=
  "      " ++ s.form ++ String.ofList (List.replicate (width - s.form.length) ' ') ++ s.explanation ++
    match s.default? with
    | some value => " [default: " ++ value ++ "]"
    | none => ""

end Setting

namespace Configuration

def version : String := "chip8-console 0.1.0"

def help : String :=
  let width := ((Setting.all.map fun s => s.form.length).foldl max 0) + 2
  let own := ["  -h, --help", "  -V, --version"].zip ["Print help", "Print version"]
  let ownLine := fun (form, text) =>
    form ++ String.ofList (List.replicate (width + 6 - form.length) ' ') ++ text
  "\n".intercalate (["Run CHIP-8 programs in the terminal", "", "Usage: chip8-console [OPTIONS]", "",
    "Options:"] ++ Setting.all.map (Setting.helpLine width) ++ own.map ownLine)

end Configuration

end Chip8Console
