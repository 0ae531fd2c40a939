import Chip8Console.Machine.Interpreter
import Chip8Console.Proofs.SliceWrites

/-!
Machines that take a program. The program alone decides what they are then, part by part; of whatever ran
before nothing is left. A machine that refuses a program is left as it was.
-/
namespace Chip8Console

/-- What a program finds: itself and the font in a RAM that is zero elsewhere, and every other part at rest. -/
structure Interpreter.Fresh (program : List UInt8) (s : Interpreter) : Prop where
  image : ∀ k (h : k < program.length), s.memory.cellByte (0x200 + k) = program[k]
  font : ∀ k (h : k < Memory.font.length), s.memory.cellByte (0x050 + k) = Memory.font[k]
  zero : ∀ n < 0x1000, n < 0x050 ∨ 0x0A0 ≤ n ∧ n < 0x200 ∨ 0x200 + program.length ≤ n →
    s.memory.cellByte n = 0
  pc : s.pc = 0x200
  index : s.index = 0
  registers : ∀ x, s.v.get x = 0
  delay : s.delay = 0
  sound : s.sound = 0
  stack : s.stack = []
  dark : ∀ place, s.frame.get place = 0
  keysUp : ∀ key, s.keys.isDown key = false
  redraw : s.redraw = false

namespace Interpreter
variable {program : List UInt8}

private theorem length_font : Memory.font.length = 0x050 := rfl

private theorem Fresh.memory_eq {s s' : Interpreter} (h : s.Fresh program) (h' : s'.Fresh program) :
    s.memory = s'.memory := by
  apply Memory.eq_of_cellByte
  intro n hn
  by_cases isZero : n < 0x050 ∨ 0x0A0 ≤ n ∧ n < 0x200 ∨ 0x200 + program.length ≤ n
  · rw [h.zero n hn isZero, h'.zero n hn isZero]
  · rcases Nat.lt_or_ge n 0x200 with low | high
    · obtain ⟨k, rfl⟩ := Nat.exists_eq_add_of_le (by omega : 0x050 ≤ n)
      have inFont : k < Memory.font.length := by
        rw [length_font]
        omega
      rw [h.font k inFont, h'.font k inFont]
    · obtain ⟨k, rfl⟩ := Nat.exists_eq_add_of_le high
      have inProgram : k < program.length := by omega
      rw [h.image k inProgram, h'.image k inProgram]

private theorem Fresh.unique {s s' : Interpreter} (h : s.Fresh program) (h' : s'.Fresh program) :
    s = s' := by
  have memory := h.memory_eq h'
  have v : s.v = s'.v := by
    apply Vector.ext
    intro x hx
    exact (h.registers ⟨x, hx⟩).trans (h'.registers ⟨x, hx⟩).symm
  have frame : s.frame = s'.frame := by
    apply Vector.ext
    intro place hplace
    exact (h.dark ⟨place, hplace⟩).trans (h'.dark ⟨place, hplace⟩).symm
  have keys : s.keys = s'.keys := by
    apply congrArg KeyTable.mk
    apply Vector.ext
    intro key hkey
    exact (h.keysUp ⟨key, hkey⟩).trans (h'.keysUp ⟨key, hkey⟩).symm
  have pc := h.pc.trans h'.pc.symm
  have index := h.index.trans h'.index.symm
  have delay := h.delay.trans h'.delay.symm
  have sound := h.sound.trans h'.sound.symm
  have stack := h.stack.trans h'.stack.symm
  have redraw := h.redraw.trans h'.redraw.symm
  cases s
  cases s'
  cases memory
  cases v
  cases frame
  cases keys
  cases pc
  cases index
  cases delay
  cases sound
  cases stack
  cases redraw
  rfl

private theorem fresh_loaded (fits : program.length ≤ 3584) :
    Fresh program { initial with memory := Memory.initial.writeSlice Memory.programStart program } := by
  have beside {n : Nat} (inRam : n < 0x1000) (h : n < 0x200 ∨ 0x200 + program.length ≤ n) :
      (Memory.initial.writeSlice Memory.programStart program).cellByte n = Memory.initial.cellByte n := by
    apply Memory.cellByte_outside
    intro k hk
    change n % 0x1000 ≠ (0x200 + k) % 0x1000
    omega
  constructor
  case image =>
    intro k h
    apply Memory.cellByte_writeSlice
    exact Nat.le_trans fits (by decide)
  case font =>
    intro k h
    have inFont : k < 0x050 := h
    refine (beside ?_ ?_).trans (Memory.cellByte_writeSlice ?_ h Memory.zeroed)
    · omega
    · omega
    · decide
  case zero =>
    intro n hn h
    refine (beside hn (by omega)).trans ((Memory.cellByte_outside ?_ Memory.zeroed).trans ?_)
    · intro k hk
      have inFont : k < 0x050 := hk
      change n % 0x1000 ≠ (0x050 + k) % 0x1000
      omega
    · exact Vector.getElem_replicate _
  case registers => exact fun x => Vector.getElem_replicate x.isLt
  case dark => exact fun place => Vector.getElem_replicate place.isLt
  case keysUp => exact KeyTable.isDown_released
  case pc | index | delay | sound | stack | redraw => rfl

/-- Over every state that a machine may be in, and every program: if the program fits, the machine takes it and
is then in the one state that the program finds, whatever it was before. If not, it answers with both sizes and
stays as it was. -/
theorem load_starts_afresh (s : Interpreter) (program : List UInt8) :
    (program.length ≤ 3584 → ∃ loaded : Interpreter,
      s.perform (.load program) = (loaded, .loaded (.ok ())) ∧ Machine.load s program = .ok (loaded, []) ∧
      ∀ t : Interpreter, t.Fresh program ↔ t = loaded) ∧
    (3584 < program.length →
      s.perform (.load program) = (s, .loaded (.error (.romTooLarge program.length 3584))) ∧
      Machine.load s program = .error (.romTooLarge program.length 3584)) := by
  constructor
  · intro fits
    have taken := load_eq_ok_iff.mpr ⟨fits, rfl⟩
    refine ⟨_, ?_, ?_, fun t => ⟨fun h => h.unique (fresh_loaded fits), ?_⟩⟩
    · simp only [perform, taken]
    · simp only [Machine.load, taken]
      rfl
    · rintro rfl
      exact fresh_loaded fits
  · intro large
    have refused : load program = .error (.romTooLarge program.length 3584) := by
      have tooLong : program.length > Memory.maxProgram := large
      simp only [load, Memory.load, if_pos tooLong]
      rfl
    constructor
    · simp only [perform, refused]
    · simp only [Machine.load, refused]
      rfl

/-- A program that fills the RAM to its last byte is taken by a machine that ran another one before. One byte
more is refused. -/
theorem load_starts_afresh_of_full :
    let s : Interpreter := { initial with
      memory := Memory.zeroed.writeSlice 0x0FFE [0x12, 0xFE]
      pc := 0x0FFE
      stack := [0x0300]
      keys := KeyTable.released.set 0x3 true }
    let full : List UInt8 := List.replicate 3584 0x11
    let larger : List UInt8 := List.replicate 3585 0x11
    full.length ≤ 3584 ∧ 3584 < larger.length ∧
    (∃ loaded : Interpreter, s.perform (.load full) = (loaded, .loaded (.ok ())) ∧
      loaded.memory.cellByte 0x0FFF = 0x11 ∧ loaded.memory.cellByte 0x01FF = 0 ∧
      loaded.keys.isDown 0x3 = false) ∧
    s.perform (.load larger) = (s, .loaded (.error (.romTooLarge 3585 3584))) := by
  intro s full larger
  have size : full.length = 3584 := List.length_replicate
  have size' : larger.length = 3585 := List.length_replicate
  have fits : full.length ≤ 3584 := Nat.le_of_eq size
  have large : 3584 < larger.length := Nat.lt_of_lt_of_eq (by decide) size'.symm
  obtain ⟨loaded, taken, -, states⟩ := (load_starts_afresh s full).1 fits
  have fresh := (states loaded).mpr rfl
  obtain ⟨refused, -⟩ := (load_starts_afresh s larger).2 large
  rw [size'] at refused
  refine ⟨fits, large, ⟨loaded, taken, ?_, ?_, fresh.keysUp 0x3⟩, refused⟩
  · have last := fresh.image 3583 (by rw [size]; decide)
    exact last.trans (List.getElem_replicate _)
  · exact fresh.zero 0x01FF (by decide) (.inr (.inl (by decide)))

end Interpreter

end Chip8Console
