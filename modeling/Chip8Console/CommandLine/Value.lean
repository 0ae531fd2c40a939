import Chip8Console.CommandLine.UsageError
import Chip8Console.Number.Word

/-!
The values of settings: what text each of them takes, and what it changes in the configuration.
-/
namespace Chip8Console.Setting

def ranged (least greatest : Nat) (text : String) : Except ValueFault Nat :=
  match Number.readInteger text.toList with
  | .error fault => .error (.numeral fault)
  | .ok value =>
    if (least : Int) ≤ value ∧ value ≤ greatest then .ok value.toNat
    else .error (.outOfRange value least greatest)

def natural (text : String) : Except ValueFault Nat :=
  (Number.readNatural (Word.limit - 1) text.toList).mapError .numeral

def rate (text : String) : Except ValueFault RefreshRate :=
  match Number.double.read text.toList with
  | .error fault => .error (.numeral fault)
  | .ok bits =>
    match RefreshRate.ofBits? bits with
    | some rate => .ok rate
    | none => .error (.unusableRate text)

/-- A volume. Any floating point number is one. -/
def gain (text : String) : Except ValueFault Gain :=
  match Number.single.read text.toList with
  | .error fault => .error (.numeral fault)
  | .ok bits => .ok ⟨UInt32.ofNat bits⟩

def withTone (c : Configuration) (change : Tone → Tone) : Configuration :=
  { c with scheduler := { c.scheduler with tone := change c.scheduler.tone } }

/-- Give a setting its value. A setting that names a path needs a text that is not empty. -/
def assign (s : Setting) (text : String) (c : Configuration) : Except UsageError Configuration :=
  let path (use : Path → Configuration) : Except UsageError Configuration :=
    if text.isEmpty then .error (.missingValue s) else .ok (use (.ofString text))
  let value {α : Type} (read : Except ValueFault α) (use : α → Configuration) :
      Except UsageError Configuration :=
    match read with
    | .error fault => .error (.invalidValue s text fault)
    | .ok a => .ok (use a)
  match s with
  | roms => path fun p => { c with romDirectory := p }
  | rom => .ok { c with initial := some (.named text) }
  | file => path fun p => { c with initial := some (.picked p) }
  | cyclesPerTick => value (ranged 1 0xFFFFFFFF text) fun n =>
      { c with scheduler := { c.scheduler with cyclesPerTick := n } }
  | refreshRate => value (rate text) fun r => { c with refreshRate := r }
  | scale => value (ranged 1 16 text) fun n =>
      { c with scheduler := { c.scheduler with scale := n } }
  | toneHz => value (ranged 0 0xFFFF text) fun n =>
      withTone c fun t => { t with frequency := UInt16.ofNat n }
  | toneGain => value (gain text) fun g => withTone c fun t => { t with gain := g }
  | toneMs => value (natural text) fun n => withTone c fun t => { t with milliseconds := n }
  | mute => .ok { c with mute := true }
  | keyHold => value (natural text) fun n => { c with keyHold := n }

end Chip8Console.Setting
