import Chip8Console.Keypad.Key

/-!
The instruction set. A word decodes to at most one instruction; words that stand for none are
skipped by the interpreter. `Instruction.word` gives the word by which an instruction is written: it is
read back from that word, and from no other but for a last digit that it ignores.
-/
namespace Chip8Console

abbrev Register := Fin 16

/-- VF, which the arithmetic and drawing instructions use as their flag. -/
def flagRegister : Register := ⟨15, by decide⟩

def lastDigit (n : Nat) : Fin 16 := ⟨n % 16, Nat.mod_lt _ (by decide)⟩

/-- What an arithmetic instruction computes from Vx and Vy, leaving the result in Vx. -/
inductive Arithmetic where
  | copy
  | or
  | and
  | xor
  | add
  /-- Vx less Vy -/
  | subtract
  /-- Vx halved; Vy plays no part -/
  | shiftRight
  /-- Vy less Vx -/
  | subtractFrom
  /-- Vx doubled; Vy plays no part -/
  | shiftLeft
deriving DecidableEq, Repr

inductive Instruction where
  /-- 0nnn: a routine in the host's own code. There are none, so it does nothing. -/
  | hostRoutine (address : UInt16)
  /-- 00E0 -/
  | clearScreen
  /-- 00EE -/
  | return
  /-- 1nnn -/
  | jump (address : UInt16)
  /-- 2nnn -/
  | call (address : UInt16)
  /-- 3xnn -/
  | skipIfByte (x : Register) (byte : UInt8)
  /-- 4xnn -/
  | skipUnlessByte (x : Register) (byte : UInt8)
  /-- 5xy0; the last digit is not looked at -/
  | skipIfEqual (x y : Register)
  /-- 6xnn -/
  | setByte (x : Register) (byte : UInt8)
  /-- 7xnn -/
  | addByte (x : Register) (byte : UInt8)
  /-- 8xy0 to 8xy7 and 8xyE -/
  | arithmetic (op : Arithmetic) (x y : Register)
  /-- 9xy0; the last digit is not looked at -/
  | skipUnlessEqual (x y : Register)
  /-- Annn -/
  | setIndex (address : UInt16)
  /-- Bnnn: jump to nnn + V0 -/
  | jumpFrom (address : UInt16)
  /-- Cxnn: a random byte under a mask -/
  | random (x : Register) (mask : UInt8)
  /-- Dxyn -/
  | draw (x y : Register) (height : Fin 16)
  /-- Ex9E -/
  | skipIfDown (x : Register)
  /-- ExA1 -/
  | skipUnlessDown (x : Register)
  /-- Fx07 -/
  | readDelay (x : Register)
  /-- Fx0A -/
  | awaitKey (x : Register)
  /-- Fx15 -/
  | setDelay (x : Register)
  /-- Fx18 -/
  | setSound (x : Register)
  /-- Fx1E -/
  | addIndex (x : Register)
  /-- Fx29 -/
  | indexGlyph (x : Register)
  /-- Fx33 -/
  | storeDecimal (x : Register)
  /-- Fx55 -/
  | storeRegisters (x : Register)
  /-- Fx65 -/
  | loadRegisters (x : Register)
deriving DecidableEq, Repr

namespace Arithmetic

def digit : Arithmetic → UInt16
  | copy => 0x0
  | or => 0x1
  | and => 0x2
  | xor => 0x3
  | add => 0x4
  | subtract => 0x5
  | shiftRight => 0x6
  | subtractFrom => 0x7
  | shiftLeft => 0xE

def ofDigit? : Nat → Option Arithmetic
  | 0x0 => some copy
  | 0x1 => some or
  | 0x2 => some and
  | 0x3 => some xor
  | 0x4 => some add
  | 0x5 => some subtract
  | 0x6 => some shiftRight
  | 0x7 => some subtractFrom
  | 0xE => some shiftLeft
  | _ => none

end Arithmetic

namespace Instruction

private def ofKeyWord? (x : Register) : Nat → Option Instruction
  | 0x9E => some (.skipIfDown x)
  | 0xA1 => some (.skipUnlessDown x)
  | _ => none

private def ofMiscellaneousWord? (x : Register) : Nat → Option Instruction
  | 0x07 => some (.readDelay x)
  | 0x0A => some (.awaitKey x)
  | 0x15 => some (.setDelay x)
  | 0x18 => some (.setSound x)
  | 0x1E => some (.addIndex x)
  | 0x29 => some (.indexGlyph x)
  | 0x33 => some (.storeDecimal x)
  | 0x55 => some (.storeRegisters x)
  | 0x65 => some (.loadRegisters x)
  | _ => none

/-- The instruction that a word stands for. The first digit picks the family, the others are
operands or finish the choice. -/
def decode? (w : UInt16) : Option Instruction :=
  let x : Register := lastDigit (w.toNat / 0x100)
  let y : Register := lastDigit (w.toNat / 0x10)
  let n : Fin 16 := lastDigit w.toNat
  let nn : UInt8 := w.toUInt8
  let nnn : UInt16 := w &&& 0x0FFF
  match w.toNat / 0x1000 with
  | 0x0 => some (if nnn = 0x0E0 then .clearScreen else if nnn = 0x0EE then .return else .hostRoutine nnn)
  | 0x1 => some (.jump nnn)
  | 0x2 => some (.call nnn)
  | 0x3 => some (.skipIfByte x nn)
  | 0x4 => some (.skipUnlessByte x nn)
  | 0x5 => some (.skipIfEqual x y)
  | 0x6 => some (.setByte x nn)
  | 0x7 => some (.addByte x nn)
  | 0x8 => (Arithmetic.ofDigit? n.val).map (.arithmetic · x y)
  | 0x9 => some (.skipUnlessEqual x y)
  | 0xA => some (.setIndex nnn)
  | 0xB => some (.jumpFrom nnn)
  | 0xC => some (.random x nn)
  | 0xD => some (.draw x y n)
  | 0xE => ofKeyWord? x nn.toNat
  | 0xF => ofMiscellaneousWord? x nn.toNat
  | _ => none

private def address (first : UInt16) (nnn : UInt16) : UInt16 := first <<< 12 ||| (nnn &&& 0x0FFF)

private def withRegister (first : UInt16) (x : Register) (low : UInt16) : UInt16 :=
  first <<< 12 ||| UInt16.ofNat x.val <<< 8 ||| low

private def withRegisters (first : UInt16) (x y : Register) (last : UInt16) : UInt16 :=
  withRegister first x (UInt16.ofNat y.val <<< 4 ||| last)

/-- The word by which an instruction is written. Of an address only the low twelve bits fit. -/
def word : Instruction → UInt16
  | hostRoutine a => address 0x0 a
  | clearScreen => 0x00E0
  | .return => 0x00EE
  | jump a => address 0x1 a
  | call a => address 0x2 a
  | skipIfByte x b => withRegister 0x3 x b.toUInt16
  | skipUnlessByte x b => withRegister 0x4 x b.toUInt16
  | skipIfEqual x y => withRegisters 0x5 x y 0
  | setByte x b => withRegister 0x6 x b.toUInt16
  | addByte x b => withRegister 0x7 x b.toUInt16
  | arithmetic op x y => withRegisters 0x8 x y op.digit
  | skipUnlessEqual x y => withRegisters 0x9 x y 0
  | setIndex a => address 0xA a
  | jumpFrom a => address 0xB a
  | random x b => withRegister 0xC x b.toUInt16
  | draw x y n => withRegisters 0xD x y (UInt16.ofNat n.val)
  | skipIfDown x => withRegister 0xE x 0x9E
  | skipUnlessDown x => withRegister 0xE x 0xA1
  | readDelay x => withRegister 0xF x 0x07
  | awaitKey x => withRegister 0xF x 0x0A
  | setDelay x => withRegister 0xF x 0x15
  | setSound x => withRegister 0xF x 0x18
  | addIndex x => withRegister 0xF x 0x1E
  | indexGlyph x => withRegister 0xF x 0x29
  | storeDecimal x => withRegister 0xF x 0x33
  | storeRegisters x => withRegister 0xF x 0x55
  | loadRegisters x => withRegister 0xF x 0x65

/-- Two numbers side by side in a word, `low` in its lowest bits. -/
theorem toNat_shiftLeft_or {high low width : UInt16} (hwidth : width.toNat < 16)
    (hhigh : high.toNat * Nat.pow 2 width.toNat < 0x10000)
    (hlow : low.toNat < Nat.pow 2 width.toNat) :
    (high <<< width ||| low).toNat = high.toNat * Nat.pow 2 width.toNat + low.toNat := by
  have wide : high.toNat <<< width.toNat < 0x10000 := by
    rw [Nat.shiftLeft_eq]
    exact hhigh
  calc (high <<< width ||| low).toNat = high.toNat <<< width.toNat ||| low.toNat := by
        rw [UInt16.toNat_or, UInt16.toNat_shiftLeft, Nat.mod_eq_of_lt hwidth, Nat.mod_eq_of_lt wide]
    _ = high.toNat <<< width.toNat + low.toNat := (Nat.shiftLeft_add_eq_or_of_lt hlow _).symm
    _ = high.toNat * Nat.pow 2 width.toNat + low.toNat :=
        congrArg (· + low.toNat) (Nat.shiftLeft_eq high.toNat width.toNat)

private theorem toNat_lowDigits (w : UInt16) : (w &&& 0x0FFF).toNat = w.toNat % 0x1000 := by
  rw [UInt16.toNat_and]
  exact Nat.and_two_pow_sub_one_eq_mod w.toNat 12

private theorem toNat_ofDigit (d : Fin 16) : (UInt16.ofNat d.val).toNat = d.val :=
  UInt16.toNat_ofNat_of_lt' (Nat.lt_trans d.isLt (by decide))

private theorem toNat_address {first : UInt16} (hfirst : first.toNat < 16) (nnn : UInt16) :
    (address first nnn).toNat = first.toNat * 0x1000 + nnn.toNat % 0x1000 := by
  have hlow : (nnn &&& 0x0FFF).toNat < 0x1000 := by
    rw [toNat_lowDigits]
    exact Nat.mod_lt _ (by decide)
  rw [address, toNat_shiftLeft_or (by decide) (by change _ * 0x1000 < _; omega) hlow, toNat_lowDigits]
  rfl

private theorem toNat_withRegister {first low : UInt16} (hfirst : first.toNat < 16) (x : Register)
    (hlow : low.toNat < 0x100) :
    (withRegister first x low).toNat = first.toNat * 0x1000 + x.val * 0x100 + low.toNat := by
  have hx := x.isLt
  have digit := toNat_ofDigit x
  have inner : (UInt16.ofNat x.val <<< 8 ||| low).toNat = x.val * 0x100 + low.toNat := by
    rw [toNat_shiftLeft_or (by decide) (by rw [digit]; change x.val * 0x100 < _; omega) hlow, digit]
    rfl
  rw [withRegister, UInt16.or_assoc, toNat_shiftLeft_or (by decide) (by change _ * 0x1000 < _; omega)
    (by rw [inner]; change _ < 0x1000; omega), inner]
  change _ * 0x1000 + _ = _
  omega

private theorem toNat_withRegisters {first last : UInt16} (hfirst : first.toNat < 16) (x y : Register)
    (hlast : last.toNat < 0x10) : (withRegisters first x y last).toNat =
      first.toNat * 0x1000 + x.val * 0x100 + y.val * 0x10 + last.toNat := by
  have hy := y.isLt
  have digit := toNat_ofDigit y
  have inner : (UInt16.ofNat y.val <<< 4 ||| last).toNat = y.val * 0x10 + last.toNat := by
    rw [toNat_shiftLeft_or (by decide) (by rw [digit]; change y.val * 0x10 < _; omega) hlast, digit]
    rfl
  rw [withRegisters, toNat_withRegister hfirst x (by omega), inner]
  omega

/-! What is read back of a word -/

section
variable {first : UInt16} (hfirst : first.toNat < 16)
include hfirst

private theorem family_address (nnn : UInt16) : (address first nnn).toNat / 0x1000 = first.toNat := by
  have written := toNat_address hfirst nnn
  omega

private theorem lowDigits_address (nnn : UInt16) : address first nnn &&& 0x0FFF = nnn &&& 0x0FFF := by
  apply UInt16.toNat_inj.mp
  rw [toNat_lowDigits, toNat_lowDigits, toNat_address hfirst]
  omega

private theorem readBack_withRegister (x : Register) {low : UInt16} (hlow : low.toNat < 0x100) :
    let w := withRegister first x low
    w.toNat / 0x1000 = first.toNat ∧ lastDigit (w.toNat / 0x100) = x ∧ w.toUInt8 = low.toUInt8 := by
  intro w
  have written : w.toNat = _ := toNat_withRegister hfirst x hlow
  have hx := x.isLt
  refine ⟨by omega, Fin.ext (by simp only [lastDigit]; omega), ?_⟩
  apply UInt8.toNat_inj.mp
  rw [UInt16.toNat_toUInt8, UInt16.toNat_toUInt8]
  omega

private theorem readBack_withRegisters (x y : Register) {last : UInt16} (hlast : last.toNat < 0x10) :
    let w := withRegisters first x y last
    w.toNat / 0x1000 = first.toNat ∧ lastDigit (w.toNat / 0x100) = x ∧ lastDigit (w.toNat / 0x10) = y ∧
      lastDigit w.toNat = ⟨last.toNat, hlast⟩ := by
  intro w
  have hx := x.isLt
  have hy := y.isLt
  have written : w.toNat = _ := toNat_withRegisters hfirst x y hlast
  refine ⟨by omega, ?_, ?_, ?_⟩ <;> exact Fin.ext (by simp only [lastDigit]; omega)

end

/-- The instruction with no more of its address than fits into its word. -/
def trimmed : Instruction → Instruction
  | hostRoutine a => hostRoutine (a &&& 0x0FFF)
  | jump a => jump (a &&& 0x0FFF)
  | call a => call (a &&& 0x0FFF)
  | setIndex a => setIndex (a &&& 0x0FFF)
  | jumpFrom a => jumpFrom (a &&& 0x0FFF)
  | i => i

/-- What of an address does not fit into a word is not written. -/
theorem word_trimmed (i : Instruction) : i.trimmed.word = i.word := by
  have cut (first a : UInt16) : address first (a &&& 0x0FFF) = address first a := by
    rw [address, address, UInt16.and_assoc, UInt16.and_self]
  cases i with
  | hostRoutine | jump | call | setIndex | jumpFrom => exact cut _ _
  | _ => rfl

def isHostRoutine : Instruction → Bool
  | hostRoutine _ => true
  | _ => false

/-- An instruction is read back from the word by which it is written. -/
theorem decode?_word {i : Instruction} (own : i.isHostRoutine = false) :
    decode? i.word = some i.trimmed := by
  have byte (b : UInt8) : b.toUInt16.toNat < 0x100 := by
    rw [UInt8.toNat_toUInt16]
    exact b.toNat_lt
  cases i with
  | hostRoutine => cases own
  | clearScreen | «return» => rfl
  | jump a | call a | setIndex a | jumpFrom a =>
    simp (disch := decide) only [word, decode?, family_address, lowDigits_address]
    rfl
  | skipIfByte x b | skipUnlessByte x b | setByte x b | addByte x b | random x b =>
    simp (disch := first | decide | exact byte b) only [word, decode?, readBack_withRegister,
      UInt8.toUInt8_toUInt16]
    rfl
  | arithmetic op x y =>
    have hdigit : op.digit.toNat < 0x10 := by cases op <;> decide
    simp (disch := first | decide | exact hdigit) only [word, decode?, readBack_withRegisters]
    cases op <;> rfl
  | skipIfEqual x y | skipUnlessEqual x y =>
    simp (disch := decide) only [word, decode?, readBack_withRegisters]
    rfl
  | draw x y n =>
    have hn : (UInt16.ofNat n.val).toNat < 0x10 := (toNat_ofDigit n).symm ▸ n.isLt
    simp (disch := first | decide | exact hn) only [word, decode?, readBack_withRegisters, toNat_ofDigit]
    rfl
  | skipIfDown x | skipUnlessDown x | readDelay x | awaitKey x | setDelay x | setSound x | addIndex x
  | indexGlyph x | storeDecimal x | storeRegisters x | loadRegisters x =>
    simp (disch := decide) only [word, decode?, readBack_withRegister]
    rfl

section
variable {w first : UInt16} (hfirst : first.toNat < 16) (family : w.toNat / 0x1000 = first.toNat)
include hfirst family

private theorem address_lowDigits : address first (w &&& 0x0FFF) = w := by
  apply UInt16.toNat_inj.mp
  rw [toNat_address hfirst, toNat_lowDigits]
  omega

private theorem withRegister_lastDigit {low : UInt16} (hlow : low.toNat = w.toNat % 0x100) :
    withRegister first (lastDigit (w.toNat / 0x100)) low = w := by
  apply UInt16.toNat_inj.mp
  rw [toNat_withRegister hfirst _ (by omega)]
  simp only [lastDigit]
  omega

private theorem toNat_withRegisters_lastDigit {last : UInt16} (hlast : last.toNat < 0x10) :
    (withRegisters first (lastDigit (w.toNat / 0x100)) (lastDigit (w.toNat / 0x10)) last).toNat =
      w.toNat / 0x10 * 0x10 + last.toNat := by
  rw [toNat_withRegisters hfirst _ _ hlast]
  simp only [lastDigit]
  omega

private theorem withRegisters_lastDigit {last : UInt16} (hlast : last.toNat = w.toNat % 0x10) :
    withRegisters first (lastDigit (w.toNat / 0x100)) (lastDigit (w.toNat / 0x10)) last = w := by
  apply UInt16.toNat_inj.mp
  rw [toNat_withRegisters_lastDigit hfirst family (by omega)]
  omega

end

/-- Whether an instruction has no operand in the last digit of its word and is carried out whatever that
digit is. -/
def ignoresLastDigit : Instruction → Bool
  | skipIfEqual .. | skipUnlessEqual .. => true
  | _ => false

private theorem digit_of_ofDigit? {n : Nat} {op : Arithmetic} (h : Arithmetic.ofDigit? n = some op) :
    op.digit.toNat = n := by
  unfold Arithmetic.ofDigit? at h
  split at h <;> cases h <;> rfl

/-- A word that is read as an instruction is the word of that instruction, up to a last digit that it
ignores. -/
theorem word_of_decode? {w : UInt16} {i : Instruction} (h : decode? w = some i) :
    i.word = w ∨ i.ignoresLastDigit = true ∧ i.word.toNat = w.toNat / 0x10 * 0x10 := by
  have low {n : Nat} (hn : w.toUInt8.toNat = n) : n = w.toNat % 0x100 := by
    rw [← hn, UInt16.toNat_toUInt8]
  unfold decode? at h
  dsimp only at h
  split at h
  case h_1 family =>
    have written : address 0x0 (w &&& 0x0FFF) = w := address_lowDigits (by decide) family
    left
    by_cases clears : w &&& 0x0FFF = 0x0E0
    · rw [if_pos clears] at h
      cases h
      rw [← written, clears]
      rfl
    · rw [if_neg clears] at h
      by_cases returns : w &&& 0x0FFF = 0x0EE
      · rw [if_pos returns] at h
        cases h
        rw [← written, returns]
        rfl
      · rw [if_neg returns] at h
        cases h
        exact written
  case h_6 family | h_10 family =>
    cases h
    exact .inr ⟨rfl, toNat_withRegisters_lastDigit (by decide) family (by decide)⟩
  case h_9 family =>
    obtain ⟨op, hop, hi⟩ := Option.map_eq_some_iff.mp h
    subst hi
    exact .inl (withRegisters_lastDigit (by decide) family (digit_of_ofDigit? hop))
  case h_14 family =>
    cases h
    exact .inl (withRegisters_lastDigit (by decide) family (toNat_ofDigit (lastDigit w.toNat)))
  case h_15 family =>
    unfold ofKeyWord? at h
    split at h <;> cases h
    all_goals exact .inl (withRegister_lastDigit (by decide) family (low ‹_›))
  case h_16 family =>
    unfold ofMiscellaneousWord? at h
    split at h <;> cases h
    all_goals exact .inl (withRegister_lastDigit (by decide) family (low ‹_›))
  case h_17 => cases h
  case h_2 family | h_3 family | h_11 family | h_12 family =>
    cases h
    exact .inl (address_lowDigits (by decide) family)
  case h_4 family | h_5 family | h_7 family | h_8 family | h_13 family =>
    cases h
    exact .inl (withRegister_lastDigit (by decide) family (low (UInt8.toNat_toUInt16 _).symm))

/-- An instruction that regards the last digit is read from its own word only. -/
theorem word_eq_of_decode? {w : UInt16} {i : Instruction} (h : decode? w = some i)
    (regards : i.ignoresLastDigit = false) : w = i.word := by
  rcases word_of_decode? h with written | ⟨ignores, -⟩
  · exact written.symm
  · rw [regards] at ignores
    cases ignores

/-- An instruction that ignores the last digit of its word is read with any last digit. -/
theorem decode?_of_ignoresLastDigit {i : Instruction} (ignores : i.ignoresLastDigit = true) {w : UInt16}
    (same : w.toNat / 0x10 = i.word.toNat / 0x10) : decode? w = some i := by
  have digits (first : UInt16) (hfirst : first.toNat < 16) (x y : Register)
      (h : w.toNat / 0x10 = (withRegisters first x y 0).toNat / 0x10) :
      w.toNat / 0x1000 = first.toNat ∧ lastDigit (w.toNat / 0x100) = x ∧ lastDigit (w.toNat / 0x10) = y := by
    obtain ⟨family, hx, hy, -⟩ := readBack_withRegisters hfirst x y (by decide : (0 : UInt16).toNat < 0x10)
    have hundreds : w.toNat / 0x100 = (withRegisters first x y 0).toNat / 0x100 := by omega
    exact ⟨by omega, hundreds ▸ hx, h ▸ hy⟩
  cases i with
  | skipIfEqual x y =>
    obtain ⟨family, hx, hy⟩ := digits 0x5 (by decide) x y same
    simp only [decode?, family, hx, hy]
    rfl
  | skipUnlessEqual x y =>
    obtain ⟨family, hx, hy⟩ := digits 0x9 (by decide) x y same
    simp only [decode?, family, hx, hy]
    rfl
  | _ => cases ignores

/-- A call that is written is read back, with the low twelve bits of its address. -/
theorem decode?_call (a : UInt16) : decode? (call a).word = some (.call (a &&& 0x0FFF)) :=
  decode?_word rfl

/-- A drawing that is written is read back. -/
theorem decode?_draw (x y : Register) (n : Fin 16) :
    decode? (draw x y n).word = some (.draw x y n) :=
  decode?_word rfl

/-- One word only is read as a return. -/
theorem decode?_eq_return_iff (w : UInt16) : decode? w = some .return ↔ w = word .return := by
  constructor
  · exact fun h => word_eq_of_decode? h rfl
  · rintro rfl
    rfl

end Instruction

end Chip8Console
