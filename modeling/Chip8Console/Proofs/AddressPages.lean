import Mathlib.Data.List.Forall2
import Mathlib.Data.Nat.ModEq
import Chip8Console.Machine.Interpreter
import Chip8Console.Proofs.MachineOperations

/-!
Addresses a whole number of pages of RAM apart. No instruction tells them apart: machines that differ
in nothing else go on alike, and the difference shows only where an address itself is shown.
-/
namespace Chip8Console

/-- Two addresses that differ by a multiple of the size of the RAM. -/
def SameCell (a b : UInt16) : Prop := a.toNat ≡ b.toNat [MOD Memory.size]

namespace SameCell
variable {a b : UInt16}

instance : Decidable (SameCell a b) :=
  inferInstanceAs (Decidable (a.toNat % Memory.size = b.toNat % Memory.size))

private theorem refl (a : UInt16) : SameCell a a := Nat.ModEq.refl _

private theorem add (h : SameCell a b) (offset : UInt16) : SameCell (a + offset) (b + offset) := by
  unfold SameCell Nat.ModEq Memory.size at *
  rw [UInt16.toNat_add, UInt16.toNat_add]
  omega

private theorem sub (h : SameCell a b) (offset : UInt16) : SameCell (a - offset) (b - offset) := by
  unfold SameCell Nat.ModEq Memory.size at *
  rw [UInt16.toNat_sub, UInt16.toNat_sub]
  omega

private theorem cell (h : SameCell a b) : Memory.cell a = Memory.cell b := Fin.ext h

end SameCell

namespace Memory
variable {a b : UInt16}

private theorem read_sameCell (m : Memory) (h : SameCell a b) : m.read a = m.read b := by
  simp only [read, h.cell]

private theorem word_sameCell (m : Memory) (h : SameCell a b) : m.word a = m.word b := by
  unfold word
  rw [m.read_sameCell h, m.read_sameCell (h.add 1)]

private theorem write_sameCell (m : Memory) (h : SameCell a b) (byte : UInt8) :
    m.write a byte = m.write b byte := by
  simp only [write, h.cell]

theorem writeSlice_cons (m : Memory) (a : UInt16) (byte : UInt8) (data : List UInt8) :
    m.writeSlice a (byte :: data) = (m.write a byte).writeSlice (a + 1) data := rfl

private theorem writeSlice_sameCell (m : Memory) (h : SameCell a b) (data : List UInt8) :
    m.writeSlice a data = m.writeSlice b data := by
  induction data generalizing m a b with
  | nil => rfl
  | cons byte data ih =>
    rw [writeSlice_cons, writeSlice_cons, m.write_sameCell h]
    exact ih _ (h.add 1)

end Memory

/-- Two notices that differ at most in the page of an address. -/
inductive Notice.Alike : Notice → Notice → Prop
  | emptyStack {a b : UInt16} (h : SameCell a b) : Alike (.emptyStack a) (.emptyStack b)
  | stackOverflow {a b : UInt16} (h : SameCell a b) : Alike (.stackOverflow a) (.stackOverflow b)
  | unknownInstruction (word : UInt16) {a b : UInt16} (h : SameCell a b) :
      Alike (.unknownInstruction word a) (.unknownInstruction word b)

namespace Interpreter

/-- Two machines that differ at most in the pages of the program counter, of the index register and of
the return addresses. -/
def PagesApart (s s' : Interpreter) : Prop :=
  ∃ pc index stack, s' = { s with pc, index, stack } ∧
    SameCell s.pc pc ∧ SameCell s.index index ∧ List.Forall₂ SameCell s.stack stack

/-- Two answers that differ at most in the page of an address that is told. -/
inductive Answer.Alike : Answer → Answer → Prop
  | loaded (result : Except ConsoleError Unit) : Alike (.loaded result) (.loaded result)
  | cycled {told told' : Option Notice} (h : Option.Rel Notice.Alike told told') :
      Alike (.cycled told) (.cycled told')
  | timed (beep : Bool) : Alike (.timed beep) (.timed beep)
  | keyed : Alike .keyed .keyed

def ToldApart (after after' : Interpreter × Option Notice) : Prop :=
  PagesApart after.1 after'.1 ∧ Option.Rel Notice.Alike after.2 after'.2

namespace PagesApart
variable {s s' : Interpreter}

private theorem refl (s : Interpreter) : PagesApart s s := by
  refine ⟨s.pc, s.index, s.stack, rfl, .refl _, .refl _, ?_⟩
  exact List.forall₂_same.mpr fun address _ => .refl address

private theorem setRegister (h : PagesApart s s') (x : Register) (byte : UInt8) :
    PagesApart (s.setRegister x byte) (s'.setRegister x byte) := by
  obtain ⟨pc, index, stack, rfl, hpc, hindex, hstack⟩ := h
  exact ⟨pc, index, stack, rfl, hpc, hindex, hstack⟩

private theorem skipIf (h : PagesApart s s') (condition : Bool) :
    PagesApart (s.skipIf condition) (s'.skipIf condition) := by
  cases condition with
  | false => exact h
  | true =>
    obtain ⟨pc, index, stack, rfl, hpc, hindex, hstack⟩ := h
    exact ⟨pc + 2, index, stack, rfl, hpc.add 2, hindex, hstack⟩

private theorem calculate (h : PagesApart s s') (op : Arithmetic) (x y : Register) :
    PagesApart (s.calculate op x y) (s'.calculate op x y) := by
  have same : s'.v = s.v := by
    obtain ⟨pc, index, stack, rfl, -⟩ := h
    rfl
  simp only [Interpreter.calculate, same]
  cases (compute s.v[x] s.v[y] op).2
  · exact h.setRegister x _
  · exact (h.setRegister x _).setRegister flagRegister _

private theorem spriteCells (h : PagesApart s s') (column row : UInt8) (height : Nat) :
    s'.spriteCells column row height = s.spriteCells column row height := by
  obtain ⟨pc, index, stack, rfl, -, hindex, -⟩ := h
  unfold Interpreter.spriteCells
  congr 1
  funext down
  rw [s.memory.read_sameCell (hindex.add (UInt16.ofNat down))]

private theorem drawSprite (h : PagesApart s s') (x y : Register) (height : Nat) :
    PagesApart (s.drawSprite x y height) (s'.drawSprite x y height) := by
  have hcells := h.spriteCells s.v[x] s.v[y] height
  obtain ⟨pc, index, stack, rfl, hpc, hindex, hstack⟩ := h
  unfold Interpreter.drawSprite
  rw [hcells]
  exact ⟨pc, index, stack, rfl, hpc, hindex, hstack⟩

private theorem execute (h : PagesApart s s') (random : UInt8) (i : Instruction) :
    ToldApart (s.execute random i) (s'.execute random i) := by
  have quiet {after after' : Interpreter} (h : PagesApart after after') :
      ToldApart (after, none) (after', none) := ⟨h, .none⟩
  have hskip := h.skipIf
  have hset := h.setRegister
  have hcalculate := h.calculate
  have hdraw := h.drawSprite
  obtain ⟨pc, index, stack, rfl, hpc, hindex, hstack⟩ := h
  cases i with
  | hostRoutine | clearScreen | setDelay | setSound =>
    exact quiet ⟨pc, index, stack, rfl, hpc, hindex, hstack⟩
  | «return» =>
    simp only [Interpreter.execute]
    cases hs : s.stack with
    | nil =>
      have hnone : List.Forall₂ SameCell [] stack := hs ▸ hstack
      obtain rfl := List.forall₂_nil_left_iff.mp hnone
      exact ⟨⟨pc, index, [], rfl, hpc, hindex, hstack⟩, .some (.emptyStack (hpc.sub 2))⟩
    | cons caller callers =>
      have hsome : List.Forall₂ SameCell (caller :: callers) stack := hs ▸ hstack
      obtain ⟨caller', callers', hcaller, hcallers, rfl⟩ := List.forall₂_cons_left_iff.mp hsome
      exact quiet ⟨caller', index, callers', rfl, hcaller, hindex, hcallers⟩
  | jump address => exact quiet ⟨address, index, stack, rfl, .refl _, hindex, hstack⟩
  | call address =>
    simp only [Interpreter.execute, hstack.length_eq]
    by_cases full : stack.length = stackDepth
    · rw [if_pos full, if_pos full]
      exact ⟨⟨pc, index, stack, rfl, hpc, hindex, hstack⟩, .some (.stackOverflow (hpc.sub 2))⟩
    · rw [if_neg full, if_neg full]
      exact quiet ⟨address, index, pc :: stack, rfl, .refl _, hindex, .cons hpc hstack⟩
  | skipIfByte | skipUnlessByte | skipIfEqual | skipUnlessEqual | skipIfDown | skipUnlessDown =>
    exact quiet (hskip _)
  | setByte | addByte | random | readDelay => exact quiet (hset _ _)
  | arithmetic op x y => exact quiet (hcalculate op x y)
  | setIndex address => exact quiet ⟨pc, address, stack, rfl, hpc, .refl _, hstack⟩
  | jumpFrom address => exact quiet ⟨_, index, stack, rfl, .refl _, hindex, hstack⟩
  | draw x y height => exact quiet (hdraw x y height.val)
  | awaitKey x =>
    simp only [Interpreter.execute]
    split
    · exact quiet (hset _ _)
    · exact quiet ⟨_, index, stack, rfl, hpc.sub 2, hindex, hstack⟩
  | addIndex x => exact quiet ⟨pc, _, stack, rfl, hpc, hindex.add _, hstack⟩
  | indexGlyph x => exact quiet ⟨pc, _, stack, rfl, hpc, .refl _, hstack⟩
  | storeDecimal | storeRegisters =>
    simp only [Interpreter.execute, s.memory.writeSlice_sameCell hindex]
    exact quiet ⟨pc, index, stack, rfl, hpc, hindex, hstack⟩
  | loadRegisters x =>
    have hread (k : Nat) : s.memory.read (s.index + UInt16.ofNat k) =
        s.memory.read (index + UInt16.ofNat k) := s.memory.read_sameCell (hindex.add _)
    simp only [Interpreter.execute, hread]
    exact quiet ⟨pc, index, stack, rfl, hpc, hindex, hstack⟩

private theorem nextWord (h : PagesApart s s') : s'.nextWord = s.nextWord := by
  obtain ⟨pc, index, stack, rfl, hpc, -, -⟩ := h
  exact (s.memory.word_sameCell hpc).symm

private theorem fetched (h : PagesApart s s') : PagesApart s.fetched s'.fetched := by
  obtain ⟨pc, index, stack, rfl, hpc, hindex, hstack⟩ := h
  exact ⟨pc + 2, index, stack, rfl, hpc.add 2, hindex, hstack⟩

private theorem origin (h : PagesApart s s') : SameCell s.origin s'.origin := by
  obtain ⟨pc, index, stack, rfl, hpc, -, -⟩ := h
  exact hpc.sub 2

private theorem cycle (h : PagesApart s s') (random : UInt8) :
    ToldApart (s.cycle random) (s'.cycle random) := by
  unfold Interpreter.cycle
  rw [h.nextWord]
  cases Instruction.decode? s.nextWord with
  | none => exact ⟨h.fetched, .some (.unknownInstruction _ h.fetched.origin)⟩
  | some i => exact h.fetched.execute random i

/-- Each operation keeps two machines pages apart and tells the same of both. -/
theorem perform (h : PagesApart s s') (op : Operation) :
    PagesApart (s.perform op).1 (s'.perform op).1 ∧
      Answer.Alike (s.perform op).2 (s'.perform op).2 := by
  cases op with
  | load program =>
    simp only [Interpreter.perform]
    -- what is loaded does not depend on what ran before, and a refusal leaves both as they were
    cases Interpreter.load program with
    | error e => exact ⟨h, .loaded _⟩
    | ok loaded => exact ⟨.refl loaded, .loaded _⟩
  | cycle random => exact ⟨(h.cycle random).1, .cycled (h.cycle random).2⟩
  | tickTimers =>
    obtain ⟨pc, index, stack, rfl, hpc, hindex, hstack⟩ := h
    exact ⟨⟨pc, index, stack, rfl, hpc, hindex, hstack⟩, .timed _⟩
  | setKey key pressed =>
    obtain ⟨pc, index, stack, rfl, hpc, hindex, hstack⟩ := h
    exact ⟨⟨pc, index, stack, rfl, hpc, hindex, hstack⟩, .keyed⟩

private theorem performAll (h : PagesApart s s') (ops : List Operation) :
    PagesApart (s.performAll ops).1 (s'.performAll ops).1 ∧
      List.Forall₂ Answer.Alike (s.performAll ops).2 (s'.performAll ops).2 := by
  induction ops generalizing s s' with
  | nil => exact ⟨h, .nil⟩
  | cons op rest ih =>
    obtain ⟨happart, halike⟩ := h.perform op
    obtain ⟨hlast, hanswers⟩ := ih happart
    exact ⟨hlast, .cons halike hanswers⟩

end PagesApart

/-- Over machines that differ at most in the pages of the program counter, of the index register and of
the return addresses: every operation leaves them so, with the same answers, and so does every run. At
the end of each run registers, timers, memory, picture, keys and redraw flag are the same, and so are the
registers as they are shown but for PC and I. -/
theorem pages_unseen {s s' : Interpreter} (h : PagesApart s s') :
    (∀ op, PagesApart (s.perform op).1 (s'.perform op).1 ∧
      Answer.Alike (s.perform op).2 (s'.perform op).2) ∧
    ∀ ops,
      let last := (s.performAll ops).1
      let last' := (s'.performAll ops).1
      PagesApart last last' ∧
      List.Forall₂ Answer.Alike (s.performAll ops).2 (s'.performAll ops).2 ∧
      last'.v = last.v ∧ last'.delay = last.delay ∧ last'.sound = last.sound ∧
      last'.memory = last.memory ∧ last'.frame = last.frame ∧ last'.keys = last.keys ∧
      last'.redraw = last.redraw ∧ last'.stack.length = last.stack.length ∧
      last'.registers =
        ("PC", last'.pc.toNat) :: ("I", last'.index.toNat) :: last.registers.drop 2 := by
  refine ⟨h.perform, fun ops => ?_⟩
  obtain ⟨hlast, hanswers⟩ := h.performAll ops
  refine ⟨hlast, hanswers, ?_⟩
  obtain ⟨pc, index, stack, hsame, -, -, hstack⟩ := hlast
  rw [hsame]
  exact ⟨rfl, rfl, rfl, rfl, rfl, rfl, rfl, hstack.length_eq.symm, rfl⟩

/-- With the program counter once at the top of the RAM and once at the top of all addresses, a word that
lies across the top stores two registers; the next word is no instruction. -/
theorem pages_unseen_of_top :
    let memory := Memory.zeroed.writeSlice 0x0FFF [0xF1, 0x55, 0xE0]
    let v := Vector.replicate 16 (0x12 : UInt8)
    let s : Interpreter := { initial with memory, v, pc := 0x0FFF, index := 0x0010, stack := [0x0202] }
    let s' : Interpreter := { s with pc := 0xFFFF, index := 0xC010, stack := [0x3202] }
    let ops : List Operation := [.cycle 0, .setKey 0x3 true, .tickTimers, .cycle 0]
    let last := (s.performAll ops).1
    let last' := (s'.performAll ops).1
    PagesApart s s' ∧ PagesApart last last' ∧
    List.Forall₂ Answer.Alike (s.performAll ops).2 (s'.performAll ops).2 ∧
    last'.memory = last.memory ∧ last.memory.read 0x0011 = 0x12 := by
  intro memory v s s' ops last last'
  have apart : PagesApart s s' := by
    refine ⟨0xFFFF, 0xC010, [0x3202], rfl, ?_, ?_, .cons ?_ .nil⟩ <;> decide
  obtain ⟨hlast, hanswers, -, -, -, hmemory, -⟩ := (pages_unseen apart).2 ops
  exact ⟨apart, hlast, hanswers, hmemory, by decide +kernel⟩

end Interpreter

end Chip8Console
