import Chip8Console.Machine.Interpreter

/-!
Words that stand for no instruction. They are passed over and nothing comes of them, but for those that
differ from a skip on two registers in their last digit alone: these skip.
-/
namespace Chip8Console

/-- A word that writes no instruction, unless it be a routine of the host. -/
def Instruction.IsForeign (w : UInt16) : Prop := ∀ i : Instruction, i.word = w → i.isHostRoutine = true

private theorem Instruction.isForeign_iff (w : UInt16) :
    IsForeign w ↔ ∀ i ∈ decode? w, i.word = w → i.isHostRoutine = true := by
  constructor
  · exact fun foreign i _ => foreign i
  · intro h i written
    cases own : i.isHostRoutine with
    | true => rfl
    | false =>
      have read : decode? w = some i.trimmed := written ▸ decode?_word own
      have host := h i.trimmed read (i.word_trimmed.trans written)
      cases i with
      | hostRoutine => exact own.symm
      | _ => cases host

instance : DecidablePred Instruction.IsForeign := fun w =>
  decidable_of_iff _ (Instruction.isForeign_iff w).symm

namespace Interpreter

/-- The next word is that of a skip on two registers, up to its last digit, and this skip would be taken. -/
def MisreadAsSkip (s : Interpreter) : Prop :=
  ∃ x y, s.nextWord.toNat / 0x10 = (Instruction.skipIfEqual x y).word.toNat / 0x10 ∧ s.v.get x = s.v.get y ∨
    s.nextWord.toNat / 0x10 = (Instruction.skipUnlessEqual x y).word.toNat / 0x10 ∧ s.v.get x ≠ s.v.get y

instance : DecidablePred MisreadAsSkip := fun _ => inferInstanceAs (Decidable (∃ _ _, _ ∧ _ ∨ _ ∧ _))

private theorem misreadAsSkip_iff (s : Interpreter) : s.MisreadAsSkip ↔
    ∃ x y, Instruction.decode? s.nextWord = some (.skipIfEqual x y) ∧ s.v.get x = s.v.get y ∨
      Instruction.decode? s.nextWord = some (.skipUnlessEqual x y) ∧ s.v.get x ≠ s.v.get y := by
  have read {i : Instruction} (ignores : i.ignoresLastDigit = true) :
      s.nextWord.toNat / 0x10 = i.word.toNat / 0x10 ↔ Instruction.decode? s.nextWord = some i := by
    refine ⟨Instruction.decode?_of_ignoresLastDigit ignores, fun h => ?_⟩
    rcases Instruction.word_of_decode? h with written | ⟨-, written⟩
    · rw [written]
    · omega
  refine exists_congr fun x => exists_congr fun y => ?_
  rw [read rfl, read rfl]

/-- A cycle on a word that stands for an instruction is that instruction, with `pc` past the word. -/
theorem cycle_of_decode? {s : Interpreter} {i : Instruction} (h : Instruction.decode? s.nextWord = some i)
    (random : UInt8) : s.cycle random = s.fetched.execute random i := by
  simp only [cycle, h]

/-- A cycle that fetches the word of an instruction carries it out, as far as its address fits. -/
theorem cycle_of_word {s : Interpreter} {i : Instruction} (own : i.isHostRoutine = false)
    (fetches : s.nextWord = i.word) (random : UInt8) :
    s.cycle random = s.fetched.execute random i.trimmed := by
  apply cycle_of_decode?
  rw [fetches]
  exact Instruction.decode?_word own

private theorem cycle_misread {s : Interpreter} (h : s.MisreadAsSkip) (random : UInt8) :
    (s.cycle random).1 = { s with redraw := false, pc := s.pc + 4 } := by
  have skips (condition : Bool) (taken : condition = true) :
      s.fetched.skipIf condition = { s with redraw := false, pc := s.pc + 4 } := by
    rw [taken]
    exact congrArg (fun pc => { s with redraw := false, pc }) (UInt16.add_assoc s.pc 2 2)
  obtain ⟨x, y, ⟨read, equal⟩ | ⟨read, apart⟩⟩ := s.misreadAsSkip_iff.mp h
  · rw [cycle_of_decode? read]
    exact skips _ (beq_iff_eq.mpr equal)
  · rw [cycle_of_decode? read]
    exact skips _ (bne_iff_ne.mpr apart)

private theorem cycle_foreign {s : Interpreter} (foreign : Instruction.IsForeign s.nextWord)
    (h : ¬ s.MisreadAsSkip) (random : UInt8) :
    (s.cycle random).1 = { s with redraw := false, pc := s.pc + 2 } := by
  have stays (condition : Bool) (untaken : ¬ condition = true) : s.fetched.skipIf condition = s.fetched :=
    if_neg untaken
  rw [misreadAsSkip_iff] at h
  cases read : Instruction.decode? s.nextWord with
  | none =>
    simp only [cycle, read]
    rfl
  | some i =>
    rw [cycle_of_decode? read]
    rcases Instruction.word_of_decode? read with written | ⟨ignores, -⟩
    · have host := foreign i written
      cases i with
      | hostRoutine => rfl
      | _ => cases host
    · cases i with
      | skipIfEqual x y => exact stays _ fun taken => h ⟨x, y, .inl ⟨read, beq_iff_eq.mp taken⟩⟩
      | skipUnlessEqual x y => exact stays _ fun taken => h ⟨x, y, .inr ⟨read, bne_iff_ne.mp taken⟩⟩
      | _ => cases ignores

/-- Over every foreign word in every state: a cycle passes over it and changes nothing else but the redraw
flag, unless the word is misread as a skip; then the cycle passes over the word behind it as well. -/
theorem foreign_words_pass_iff {s : Interpreter} (foreign : Instruction.IsForeign s.nextWord)
    (random : UInt8) :
    ((s.cycle random).1 = { s with redraw := false, pc := s.pc + 2 } ↔ ¬ s.MisreadAsSkip) ∧
    (s.MisreadAsSkip → (s.cycle random).1 = { s with redraw := false, pc := s.pc + 4 }) := by
  refine ⟨⟨fun passed misread => ?_, fun h => cycle_foreign foreign h random⟩, fun h => cycle_misread h random⟩
  rw [cycle_misread misread] at passed
  have same : s.pc + 4 = s.pc + 2 := congrArg Interpreter.pc passed
  cases (UInt16.add_right_inj s.pc).mp same

/-- With the word 5121 across the top of all addresses and equal registers, the word behind it is passed
over as well; with different registers it is not. -/
theorem foreign_words_pass_of_top :
    let memory := Memory.zeroed.writeSlice 0x0FFF [0x51, 0x21]
    let s : Interpreter := { initial.setRegister 1 0x07 with memory, pc := 0xFFFF }
    let t := s.setRegister 2 0x07
    Instruction.IsForeign s.nextWord ∧ ¬ s.MisreadAsSkip ∧
    (s.cycle 0).1 = { s with redraw := false, pc := s.pc + 2 } ∧ s.pc + 2 = 0x0001 ∧
    Instruction.IsForeign t.nextWord ∧ t.MisreadAsSkip ∧
    (t.cycle 0).1 = { t with redraw := false, pc := t.pc + 4 } := by
  intro memory s t
  have fetches : s.nextWord = 0x5121 := by decide +kernel
  have fetches' : t.nextWord = 0x5121 := fetches
  have foreign : Instruction.IsForeign 0x5121 := by decide
  have regarded : ¬ s.MisreadAsSkip := by
    unfold MisreadAsSkip
    rw [fetches]
    decide
  have misread : t.MisreadAsSkip := by
    unfold MisreadAsSkip
    rw [fetches']
    decide
  have foreign' : Instruction.IsForeign t.nextWord := fetches' ▸ foreign
  rw [← fetches] at foreign
  exact ⟨foreign, regarded, (foreign_words_pass_iff foreign 0).1.mpr regarded, by decide, foreign', misread,
    (foreign_words_pass_iff foreign' 0).2 misread⟩

/-- The word 5121 is foreign, and still a cycle passes over two words where V1 equals V2. -/
theorem foreign_word_skips :
    let s : Interpreter := { initial with memory := Memory.initial.writeSlice 0x200 [0x51, 0x21] }
    Instruction.IsForeign s.nextWord ∧ (s.cycle 0).1.pc = s.pc + 4 ∧
      (s.cycle 0).1 ≠ { s with redraw := false, pc := s.pc + 2 } := by
  intro s
  obtain ⟨fetches, skipped⟩ : s.nextWord = 0x5121 ∧ (s.cycle 0).1.pc = s.pc + 4 := by decide +kernel
  have foreign : Instruction.IsForeign 0x5121 := by decide
  refine ⟨fetches ▸ foreign, skipped, fun passed => ?_⟩
  rw [passed] at skipped
  cases skipped

end Interpreter

end Chip8Console
