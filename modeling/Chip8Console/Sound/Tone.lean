import Chip8Console.Notice

/-!
Tones and what they are sent to.
-/
namespace Chip8Console

/-- A volume as a binary floating point number of 32 bits, kept as its bits: sign, eight bits of
exponent, 23 of fraction. -/
structure Gain where
  bits : UInt32
deriving DecidableEq, Repr

namespace Gain

def full : Gain := ⟨0x3F800000⟩

/-- Whether the bits stand for no number at all: the exponent is full and the fraction not zero. -/
def isNaN (g : Gain) : Bool := (g.bits &&& 0x7FFFFFFF) > 0x7F800000

/-- Whether the volume is zero or below. What is no number is not silent. -/
def isSilent (g : Gain) : Bool :=
  (g.bits &&& 0x7FFFFFFF) == 0 || ((g.bits &&& 0x80000000) != 0 && !g.isNaN)

end Gain

structure Tone where
  /-- in hertz -/
  frequency : UInt16 := 2093
  gain : Gain := Gain.full
  milliseconds : Nat := 50
deriving DecidableEq, Repr

class Sound (S : Type) where
  /-- Sound a tone, without waiting for its end. -/
  pulse : S → Tone → S × List Notice

inductive Mute where
  | mute
deriving DecidableEq, Repr

instance : Sound Mute where
  pulse s _ := (s, [])

/-- A sink that remembers the tones it was sent, oldest first. -/
structure RecordingSound where
  pulses : List Tone := []
deriving DecidableEq, Repr

instance : Sound RecordingSound where
  pulse s tone := (⟨s.pulses ++ [tone]⟩, [])

end Chip8Console
