import Chip8Console.Machine.Interpreter
import Chip8Console.Proofs.KeyAgreement
import Chip8Console.Proofs.NestedCalls

/-!
What an instruction leaves alone. Each part of the machine is changed by a few named instructions and by no
others, and a byte of memory keeps its value for as long as no instruction stores over it.
-/
namespace Chip8Console.Interpreter

/-- Whether the next cycle stores to a cell of the RAM. -/
def StoresTo (s : Interpreter) (place : Fin Memory.size) : Prop :=
  (∃ x, s.nextWord = (Instruction.storeDecimal x).word ∧ Memory.Within s.index 3 place) ∨
    ∃ x, s.nextWord = (Instruction.storeRegisters x).word ∧ Memory.Within s.index (x.val + 1) place

instance (s : Interpreter) (place : Fin Memory.size) : Decidable (s.StoresTo place) :=
  inferInstanceAs (Decidable (_ ∨ _))

/-- Whether the next cycle clears the screen or draws a sprite. -/
def Paints (s : Interpreter) : Prop :=
  s.nextWord = Instruction.word .clearScreen ∨ ∃ x y height, s.nextWord = (Instruction.draw x y height).word

section
variable (s : Interpreter) (random : UInt8)

private theorem cycle_memory (place : Fin Memory.size) :
    (s.cycle random).1.memory.bytes.get place = s.memory.bytes.get place ∨ s.StoresTo place := by
  refine (s.cycle_part (·.memory.bytes.get place) (Effect.memory · place) random).imp_right ?_
  rintro ⟨i, read, ⟨x, rfl, inside⟩ | ⟨x, rfl, inside⟩⟩
  · exact .inl ⟨x, Instruction.word_eq_of_decode? read rfl, inside⟩
  · exact .inr ⟨x, Instruction.word_eq_of_decode? read rfl, inside⟩

private theorem paints_of_decode? {s : Interpreter}
    (h : ∃ i, Instruction.decode? s.nextWord = some i ∧
      (i = .clearScreen ∨ ∃ x y height, i = .draw x y height)) : s.Paints := by
  obtain ⟨i, read, rfl | ⟨x, y, height, rfl⟩⟩ := h
  · exact .inl (Instruction.word_eq_of_decode? read rfl)
  · exact .inr ⟨x, y, height, Instruction.word_eq_of_decode? read rfl⟩

private theorem cycle_picture : (s.cycle random).1.frame = s.frame ∨ s.Paints :=
  (s.cycle_part Interpreter.frame Effect.frame random).imp_right paints_of_decode?

private theorem cycle_redraw : (s.cycle random).1.redraw = true ↔ s.Paints := by
  constructor
  · intro pending
    rcases s.cycle_part Interpreter.redraw Effect.redraw random with kept | named
    · rw [kept] at pending
      cases pending
    · exact paints_of_decode? named
  · rintro (fetches | ⟨x, y, height, fetches⟩)
    · rw [cycle_of_decode? (fetches ▸ Instruction.decode?_word rfl)]
      rfl
    · rw [cycle_of_decode? (fetches ▸ Instruction.decode?_word rfl)]
      rfl

/-- A cycle changes the delay timer only on the word that sets it. -/
theorem cycle_delay : (s.cycle random).1.delay = s.delay ∨
    ∃ x, s.nextWord = (Instruction.setDelay x).word := by
  refine (s.cycle_part Interpreter.delay Effect.delay random).imp_right ?_
  rintro ⟨i, read, x, rfl⟩
  exact ⟨x, Instruction.word_eq_of_decode? read rfl⟩

/-- A cycle changes the sound timer only on the word that sets it. -/
theorem cycle_sound : (s.cycle random).1.sound = s.sound ∨
    ∃ x, s.nextWord = (Instruction.setSound x).word := by
  refine (s.cycle_part Interpreter.sound Effect.sound random).imp_right ?_
  rintro ⟨i, read, x, rfl⟩
  exact ⟨x, Instruction.word_eq_of_decode? read rfl⟩

private theorem cycle_index : (s.cycle random).1.index = s.index ∨
    ∃ i : Instruction, i.setsIndex = true ∧ s.nextWord = i.word := by
  refine (s.cycle_part Interpreter.index Effect.index random).imp_right ?_
  rintro ⟨i, read, sets⟩
  refine ⟨i, sets, Instruction.word_eq_of_decode? read ?_⟩
  cases i with
  | setIndex | addIndex | indexGlyph => rfl
  | _ => cases sets

private theorem cycle_register (z : Register) : (s.cycle random).1.v.get z = s.v.get z ∨
    (∃ i : Instruction, i.target? = some z ∧ s.nextWord = i.word) ∨
    (z = flagRegister ∧
      ((∃ op x y, op.setsFlag = true ∧ s.nextWord = (Instruction.arithmetic op x y).word) ∨
        ∃ x y height, s.nextWord = (Instruction.draw x y height).word)) ∨
    ∃ x, s.nextWord = (Instruction.loadRegisters x).word ∧ z ≤ x := by
  refine (s.cycle_part (·.v.get z) (Effect.register · z) random).imp_right ?_
  rintro ⟨i, read, target | ⟨rfl, ⟨op, x, y, flags, rfl⟩ | ⟨x, y, height, rfl⟩⟩ | ⟨x, rfl, upTo⟩⟩
  · refine .inl ⟨i, target, Instruction.word_eq_of_decode? read ?_⟩
    cases i with
    | skipIfEqual | skipUnlessEqual => cases target
    | _ => rfl
  · exact .inr (.inl ⟨rfl, .inl ⟨op, x, y, flags, Instruction.word_eq_of_decode? read rfl⟩⟩)
  · exact .inr (.inl ⟨rfl, .inr ⟨x, y, height, Instruction.word_eq_of_decode? read rfl⟩⟩)
  · exact .inr (.inr ⟨x, Instruction.word_eq_of_decode? read rfl, upTo⟩)

end

private theorem perform_memory {s : Interpreter} {op : Operation} (stays : op.isLoad = false)
    {place : Fin Memory.size} (spared : ∀ random, op = .cycle random → ¬ s.StoresTo place) :
    (s.perform op).1.memory.bytes.get place = s.memory.bytes.get place := by
  cases op with
  | load => cases stays
  | cycle random => exact (s.cycle_memory random place).resolve_right (spared random rfl)
  | tickTimers | setKey => rfl

/-- A byte keeps its value until a cycle stores over it. -/
theorem stateAfter_memory {s : Interpreter} {ops : List Operation} (stays : ∀ op ∈ ops, op.isLoad = false)
    {place : Fin Memory.size} {count : Nat} (within : count ≤ ops.length)
    (spared : ∀ earlier < count, ∀ random, ops[earlier]? = some (.cycle random) →
      ¬ (s.stateAfter ops earlier).StoresTo place) :
    (s.stateAfter ops count).memory.bytes.get place = s.memory.bytes.get place := by
  induction count with
  | zero => rfl
  | succ count ih =>
    rw [s.stateAfter_succ within]
    have kept := ih (Nat.le_of_succ_le within) fun earlier h => spared earlier (Nat.lt_succ_of_lt h)
    refine (perform_memory (stays _ (List.getElem_mem within)) fun random hop => ?_).trans kept
    have here : ops[count]? = some (.cycle random) := (List.getElem?_eq_getElem within).trans (congrArg some hop)
    exact spared count (Nat.lt_succ_self count) random here

/-- Over every state and every word: a cycle changes a cell of the RAM, the picture, the stack, a timer, the
index register or a register only if the word is that of an instruction named for it, and never a key. The
picture is pending after the instructions named for the picture and after no others. Over every run without
loading, a byte keeps its value until a cycle stores over it. -/
theorem cycle_changes_only :
    (∀ (s : Interpreter) (random : UInt8),
      let after := (s.cycle random).1
      (∀ place, after.memory.bytes.get place ≠ s.memory.bytes.get place → s.StoresTo place) ∧
      (after.frame ≠ s.frame → s.Paints) ∧ (Machine.pendingRedraw after = true ↔ s.Paints) ∧
      (after.stack ≠ s.stack →
        (∃ a, s.nextWord = (Instruction.call a).word) ∨ s.nextWord = Instruction.word .return) ∧
      (after.delay ≠ s.delay → ∃ x, s.nextWord = (Instruction.setDelay x).word) ∧
      (after.sound ≠ s.sound → ∃ x, s.nextWord = (Instruction.setSound x).word) ∧
      (after.index ≠ s.index → ∃ i : Instruction, i.setsIndex = true ∧ s.nextWord = i.word) ∧
      after.keys = s.keys ∧
      ∀ z, after.v.get z ≠ s.v.get z →
        (∃ i : Instruction, i.target? = some z ∧ s.nextWord = i.word) ∨
        (z = flagRegister ∧
          ((∃ op x y, op.setsFlag = true ∧ s.nextWord = (Instruction.arithmetic op x y).word) ∨
            ∃ x y height, s.nextWord = (Instruction.draw x y height).word)) ∨
        ∃ x, s.nextWord = (Instruction.loadRegisters x).word ∧ z ≤ x) ∧
    ∀ (s : Interpreter) (ops : List Operation) (place : Fin Memory.size),
      (∀ op ∈ ops, op.isLoad = false) → ∀ count ≤ ops.length,
      (∀ earlier < count, ∀ random, ops[earlier]? = some (.cycle random) →
        ¬ (s.stateAfter ops earlier).StoresTo place) →
      (s.stateAfter ops count).memory.bytes.get place = s.memory.bytes.get place := by
  constructor
  · intro s random after
    exact ⟨fun place => (s.cycle_memory random place).resolve_left, (s.cycle_picture random).resolve_left,
      s.cycle_redraw random, fun changed => ((s.cycle_stack random).resolve_left changed).imp And.left And.left,
      (s.cycle_delay random).resolve_left,
      (s.cycle_sound random).resolve_left, (s.cycle_index random).resolve_left, s.cycle_keys random,
      fun z => (s.cycle_register random z).resolve_left⟩
  · exact fun s ops place stays count within spared => stateAfter_memory stays within spared

/-- The registers stored around the top of the RAM, into the first cell, leave the second as it was. The
timers and a key come in between. -/
theorem cycle_changes_only_of_wrapped :
    let s : Interpreter := { initial with
      memory := Memory.zeroed.writeSlice 0x200 [0xF1, 0x55, 0x12, 0x00]
      index := 0xFFFF
      v := Vector.replicate 16 7 }
    let ops : List Operation := [.cycle 0, .tickTimers, .cycle 0, .setKey 0x3 true]
    (∀ op ∈ ops, op.isLoad = false) ∧ (∀ earlier < 4, ¬ (s.stateAfter ops earlier).StoresTo (Memory.cell 1)) ∧
    s.StoresTo (Memory.cell 0) ∧ (s.stateAfter ops 4).memory.bytes.get (Memory.cell 0) = 7 ∧
    (s.stateAfter ops 4).memory.bytes.get (Memory.cell 1) = s.memory.bytes.get (Memory.cell 1) := by
  intro s ops
  have stays : ∀ op ∈ ops, op.isLoad = false := by decide
  obtain ⟨spared, stores, stored⟩ : (∀ earlier < 4, ¬ (s.stateAfter ops earlier).StoresTo (Memory.cell 1)) ∧
      s.StoresTo (Memory.cell 0) ∧ (s.stateAfter ops 4).memory.bytes.get (Memory.cell 0) = 7 := by
    decide +kernel
  exact ⟨stays, spared, stores, stored,
    cycle_changes_only.2 s ops _ stays 4 (Nat.le_refl _) fun earlier h _ _ => spared earlier h⟩

end Chip8Console.Interpreter
