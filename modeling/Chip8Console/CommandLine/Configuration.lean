import Chip8Console.Number.BinaryFloat
import Chip8Console.Rom.Source
import Chip8Console.Session.Scheduler

/-!
What a run of the console is configured with, and the settings that configure it.
-/
namespace Chip8Console

/-- Refreshes per second, as the bits of a floating point number. -/
structure RefreshRate where
  bits : Nat
  /-- a rate is finite and above zero -/
  usable : (Number.double.isFinite bits && Number.double.isPositive bits) = true
deriving DecidableEq, Repr

namespace RefreshRate

def sixty : RefreshRate := ⟨0x404E000000000000, by decide⟩

def ofBits? (bits : Nat) : Option RefreshRate :=
  if h : (Number.double.isFinite bits && Number.double.isPositive bits) = true then some ⟨bits, h⟩
  else none

end RefreshRate

/-- What a run of the console is configured with. -/
structure Configuration where
  /-- the directory of images -/
  romDirectory : Path := .ofString "roms"
  /-- the image to start with, if one was asked for -/
  initial : Option RomRequest := none
  refreshRate : RefreshRate := .sixty
  scheduler : SchedulerSettings := {}
  mute : Bool := false
  /-- refreshes that a key stays down where releases are not reported -/
  keyHold : Nat := 6
deriving DecidableEq, Repr

/-- A part of the configuration that the command line sets. -/
inductive Setting where
  | roms
  | rom
  | file
  | cyclesPerTick
  | refreshRate
  | scale
  | toneHz
  | toneGain
  | toneMs
  | mute
  | keyHold
deriving DecidableEq, Repr

namespace Setting

def all : List Setting :=
  [roms, rom, file, cyclesPerTick, refreshRate, scale, toneHz, toneGain, toneMs, mute, keyHold]

def name : Setting → String
  | roms => "roms"
  | rom => "rom"
  | file => "file"
  | cyclesPerTick => "cycles-per-tick"
  | refreshRate => "refresh-rate"
  | scale => "scale"
  | toneHz => "tone-hz"
  | toneGain => "tone-gain"
  | toneMs => "tone-ms"
  | mute => "mute"
  | keyHold => "key-hold"

def valueName? : Setting → Option String
  | roms => some "DIR"
  | rom => some "NAME"
  | file => some "PATH"
  | cyclesPerTick => some "CYCLES_PER_TICK"
  | refreshRate => some "HZ"
  | scale => some "SCALE"
  | toneHz => some "TONE_HZ"
  | toneGain => some "TONE_GAIN"
  | toneMs => some "TONE_MS"
  | mute => none
  | keyHold => some "TICKS"

def form (s : Setting) : String :=
  "--" ++ s.name ++ match s.valueName? with
    | some value => " <" ++ value ++ ">"
    | none => ""

/-- The setting of this name. Names are never shortened. -/
def ofName? (name : String) : Option Setting := all.find? fun s => s.name == name

end Setting

/-- Every setting is found by the name it goes by. -/
theorem Setting.ofName?_name (s : Setting) : Setting.ofName? s.name = some s := by
  cases s <;> decide

end Chip8Console
