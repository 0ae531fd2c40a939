import Chip8Console.Proofs.AddressPages
import Chip8Console.Proofs.ForeignWords

/-!
What an instruction can make of a machine, part by part. All that later proofs need to know of the whole
instruction set is said here once.
-/
namespace Chip8Console

def Arithmetic.setsFlag : Arithmetic → Bool
  | copy | or | and | xor => false
  | add | subtract | shiftRight | subtractFrom | shiftLeft => true

namespace Instruction

/-- The register that takes the result of an instruction. Flags, and registers read from memory, do not
count. -/
def target? : Instruction → Option Register
  | setByte x _ | addByte x _ | arithmetic _ x _ | random x _ | readDelay x | awaitKey x => some x
  | _ => none

def setsIndex : Instruction → Bool
  | setIndex _ | addIndex _ | indexGlyph _ => true
  | _ => false

end Instruction

/-- Whether a cell of the RAM is one of `count` from `address` on, around the top. -/
def Memory.Within (address : UInt16) (count : Nat) (place : Fin size) : Prop :=
  ∃ k < count, place.val = (address.toNat + k) % size

instance (address : UInt16) (count : Nat) : DecidablePred (Memory.Within address count) :=
  fun _ => inferInstanceAs (Decidable (∃ k < count, _))

/-- A slice leaves the cells beside it alone. -/
theorem Memory.writeSlice_outside {address : UInt16} {data : List UInt8} {place : Fin size}
    (h : ¬ Within address data.length place) (m : Memory) :
    (m.writeSlice address data).bytes.get place = m.bytes.get place := by
  induction data generalizing m address with
  | nil => rfl
  | cons byte data ih =>
    have beyond : ¬ Within (address + 1) data.length place := by
      rintro ⟨k, hk, hplace⟩
      refine h ⟨k + 1, Nat.succ_lt_succ hk, ?_⟩
      rw [UInt16.toNat_add] at hplace
      simp only [size, UInt16.toNat_one] at hplace ⊢
      omega
    have apart : (cell address).val ≠ place.val := by
      intro same
      exact h ⟨0, Nat.succ_pos _, same.symm⟩
    rw [writeSlice_cons, ih beyond]
    exact Vector.getElem_set_ne (cell address).isLt place.isLt apart

namespace Interpreter

inductive Effect (s : Interpreter) : Instruction → Interpreter → Prop
  /-- of all parts at most the program counter changes -/
  | moved {i : Instruction} (pc : UInt16) : Effect s i { s with pc }
  | cleared : Effect s .clearScreen { s with frame := Frame.blank, redraw := true }
  | drawn {x y : Register} {height : Fin 16} (frame : Frame) (bit : UInt8) :
      Effect s (.draw x y height) { s.setRegister flagRegister bit with frame, redraw := true }
  | called (address : UInt16) : Effect s (.call address) { s with pc := address, stack := s.pc :: s.stack }
  | returned {pc : UInt16} {stack : List UInt16} (top : s.stack = pc :: stack) :
      Effect s .return { s with pc, stack }
  | set {i : Instruction} {x : Register} (target : i.target? = some x) (byte : UInt8) :
      Effect s i (s.setRegister x byte)
  | flagged {op : Arithmetic} {x y : Register} (flags : op.setsFlag = true) (result bit : UInt8) :
      Effect s (.arithmetic op x y) ((s.setRegister x result).setRegister flagRegister bit)
  | loaded {x : Register} {v : Vector UInt8 16} (above : ∀ z, x < z → v.get z = s.v.get z) :
      Effect s (.loadRegisters x) { s with v }
  | indexed {i : Instruction} (sets : i.setsIndex = true) (index : UInt16) : Effect s i { s with index }
  | storedDecimal {x : Register} {data : List UInt8} (three : data.length = 3) :
      Effect s (.storeDecimal x) { s with memory := s.memory.writeSlice s.index data }
  | storedRegisters {x : Register} {data : List UInt8} (upTo : data.length = x.val + 1) :
      Effect s (.storeRegisters x) { s with memory := s.memory.writeSlice s.index data }
  | delayed (x : Register) (delay : UInt8) : Effect s (.setDelay x) { s with delay }
  | sounded (x : Register) (sound : UInt8) : Effect s (.setSound x) { s with sound }

theorem length_upTo (s : Interpreter) (x : Register) : (s.v.toList.take (x.val + 1)).length = x.val + 1 := by
  rw [List.length_take, Vector.length_toList, Nat.min_eq_left x.isLt]

/-- Whatever an instruction does is one of the effects of `Effect`. -/
theorem execute_effect (s : Interpreter) (random : UInt8) (i : Instruction) :
    Effect s i (s.execute random i).1 := by
  have skip (i : Instruction) (condition : Bool) : Effect s i (s.skipIf condition) := by
    cases condition
    · exact .moved s.pc
    · exact .moved (s.pc + 2)
  cases i with
  | hostRoutine => exact .moved s.pc
  | clearScreen => exact .cleared
  | «return» =>
    simp only [execute]
    split
    · exact .moved s.pc
    · next caller callers top => exact .returned top
  | jump | jumpFrom => exact .moved _
  | call address =>
    simp only [execute]
    split
    · exact .moved s.pc
    · exact .called address
  | skipIfByte | skipUnlessByte | skipIfEqual | skipUnlessEqual | skipIfDown | skipUnlessDown => exact skip _ _
  | setByte | addByte | random | readDelay => exact .set rfl _
  | arithmetic op x y =>
    -- the flag is written behind the result, so these are two writes, the second over the first where x is F
    cases op with
    | copy | or | and | xor => exact .set rfl _
    | add | subtract | shiftRight | subtractFrom | shiftLeft => exact .flagged rfl _ _
  | setIndex | addIndex | indexGlyph => exact .indexed rfl _
  | draw => exact .drawn _ _
  | awaitKey x =>
    simp only [execute]
    split
    · exact .set rfl _
    · exact .moved _
  | setDelay x => exact .delayed x _
  | setSound x => exact .sounded x _
  | storeDecimal => exact .storedDecimal rfl
  | storeRegisters x => exact .storedRegisters (s.length_upTo x)
  | loadRegisters x =>
    apply Effect.loaded
    intro z above
    exact (Vector.getElem_ofFn z.isLt).trans (if_neg (Fin.not_le.mpr above))

namespace Effect
variable {s after : Interpreter} {i : Instruction}

/-- Only clearing the screen and drawing touch the picture. -/
theorem frame (effect : Effect s i after) :
    after.frame = s.frame ∨ i = .clearScreen ∨ ∃ x y height, i = .draw x y height := by
  cases effect with
  | cleared => exact .inr (.inl rfl)
  | drawn => exact .inr (.inr ⟨_, _, _, rfl⟩)
  | _ => exact .inl rfl

/-- Only clearing the screen and drawing change whether a repaint is pending. -/
theorem redraw (effect : Effect s i after) :
    after.redraw = s.redraw ∨ i = .clearScreen ∨ ∃ x y height, i = .draw x y height := by
  cases effect with
  | cleared => exact .inr (.inl rfl)
  | drawn => exact .inr (.inr ⟨_, _, _, rfl⟩)
  | _ => exact .inl rfl

/-- An instruction that does not ask for a repaint leaves the picture as it is. -/
theorem frame_of_quiet (effect : Effect s i after) (quiet : after.redraw = false) : after.frame = s.frame := by
  cases effect with
  | cleared | drawn => cases quiet
  | _ => rfl

/-- An instruction leaves the stack alone, unless it calls or returns. -/
theorem stack (effect : Effect s i after) :
    after.stack = s.stack ∨ (∃ a, i = .call a ∧ after.stack = s.pc :: s.stack) ∨
      (i = .return ∧ s.stack = after.pc :: after.stack) := by
  cases effect with
  | called address => exact .inr (.inl ⟨address, rfl, rfl⟩)
  | returned top => exact .inr (.inr ⟨rfl, top⟩)
  | _ => exact .inl rfl

/-- Only one instruction sets the delay timer. -/
theorem delay (effect : Effect s i after) : after.delay = s.delay ∨ ∃ x, i = .setDelay x := by
  cases effect with
  | delayed x => exact .inr ⟨x, rfl⟩
  | _ => exact .inl rfl

/-- Only one instruction sets the sound timer. -/
theorem sound (effect : Effect s i after) : after.sound = s.sound ∨ ∃ x, i = .setSound x := by
  cases effect with
  | sounded x => exact .inr ⟨x, rfl⟩
  | _ => exact .inl rfl

/-- The index register is changed only by the instructions that set it. -/
theorem index (effect : Effect s i after) : after.index = s.index ∨ i.setsIndex = true := by
  cases effect with
  | indexed sets => exact .inr sets
  | _ => exact .inl rfl

/-- No instruction presses or releases a key. -/
theorem keys (effect : Effect s i after) : after.keys = s.keys := by
  cases effect <;> rfl

/-- A cell of the RAM is changed only by the two instructions that store, in the cells that they store to. -/
theorem memory (effect : Effect s i after) (place : Fin Memory.size) :
    after.memory.bytes.get place = s.memory.bytes.get place ∨
      (∃ x, i = .storeDecimal x ∧ Memory.Within s.index 3 place) ∨
      ∃ x, i = .storeRegisters x ∧ Memory.Within s.index (x.val + 1) place := by
  cases effect with
  | storedDecimal three =>
    by_cases inside : Memory.Within s.index 3 place
    · exact .inr (.inl ⟨_, rfl, inside⟩)
    · exact .inl (Memory.writeSlice_outside (three ▸ inside) s.memory)
  | @storedRegisters x _ upTo =>
    by_cases inside : Memory.Within s.index (x.val + 1) place
    · exact .inr (.inr ⟨x, rfl, inside⟩)
    · exact .inl (Memory.writeSlice_outside (upTo ▸ inside) s.memory)
  | _ => exact .inl rfl

/-- A register is changed only as the target of an instruction, as its flag, or by being read from memory. -/
theorem register (effect : Effect s i after) (z : Register) :
    after.v.get z = s.v.get z ∨ i.target? = some z ∨
      (z = flagRegister ∧ ((∃ op x y, op.setsFlag = true ∧ i = .arithmetic op x y) ∨
        ∃ x y height, i = .draw x y height)) ∨
      ∃ x, i = .loadRegisters x ∧ z ≤ x := by
  have other (v : Vector UInt8 16) {x : Register} (byte : UInt8) (h : z ≠ x) :
      (v.set x byte).get z = v.get z :=
    Vector.getElem_set_ne x.isLt z.isLt fun same => h (Fin.ext same.symm)
  cases effect with
  | @set i x target byte =>
    by_cases own : z = x
    · exact .inr (.inl (own ▸ target))
    · exact .inl (other _ _ own)
  | @flagged op x y flags result bit =>
    by_cases flag : z = flagRegister
    · exact .inr (.inr (.inl ⟨flag, .inl ⟨op, x, y, flags, rfl⟩⟩))
    · by_cases own : z = x
      · exact .inr (.inl (own ▸ rfl))
      · exact .inl ((other _ _ flag).trans (other _ _ own))
  | drawn frame bit =>
    by_cases flag : z = flagRegister
    · exact .inr (.inr (.inl ⟨flag, .inr ⟨_, _, _, rfl⟩⟩))
    · exact .inl (other _ _ flag)
  | @loaded x v above =>
    by_cases upTo : z ≤ x
    · exact .inr (.inr (.inr ⟨x, rfl, upTo⟩))
    · exact .inl (above z (Fin.not_le.mp upTo))
  | _ => exact .inl rfl

end Effect

/-- Behind the fetch, a part of the machine changes by instructions alone that change it. -/
theorem cycle_part {α : Type} (part : Interpreter → α) {Named : Instruction → Prop} (s : Interpreter)
    (named : ∀ {i after}, Effect s.fetched i after → part after = part s.fetched ∨ Named i)
    (random : UInt8) :
    part (s.cycle random).1 = part s.fetched ∨
      ∃ i, Instruction.decode? s.nextWord = some i ∧ Named i := by
  cases read : Instruction.decode? s.nextWord with
  | none =>
    left
    simp only [cycle, read]
  | some i =>
    rw [cycle_of_decode? read]
    rcases named (s.fetched.execute_effect random i) with kept | hi
    · exact .inl kept
    · exact .inr ⟨i, rfl, hi⟩

end Interpreter

end Chip8Console
