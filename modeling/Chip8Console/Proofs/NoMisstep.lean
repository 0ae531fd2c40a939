import Mathlib.Data.List.FinRange
import Mathlib.Data.List.Nodup
import Mathlib.Tactic.IntervalCases
import Chip8Console.Proofs.GuardedMachine

/-!
The guarded machine never stumbles. Whatever it is asked for, it goes where the interpreter goes and
answers what the interpreter answers.
-/
namespace Chip8Console

private theorem Frame.isLit_toggle_ne {place other : Frame.Cell} (frame : Frame) (h : place ≠ other) :
    (frame.toggle place).isLit other = frame.isLit other := by
  unfold isLit toggle
  simp [Vector.getElem_set_ne, Fin.val_ne_of_ne h]

private theorem Frame.cell_inj {column row a a' d d' : Nat} (ha : a < 8) (ha' : a' < 8) (hd : d < 16)
    (hd' : d' < 16) (h : cell (column + a) (row + d) = cell (column + a') (row + d')) :
    a = a' ∧ d = d' := by
  have same : (row + d) % 32 * 64 + (column + a) % 64 = (row + d') % 32 * 64 + (column + a') % 64 :=
    congrArg Fin.val h
  omega

/-- A sprite covers no pixel twice. -/
theorem Interpreter.spriteCells_nodup (s : Interpreter) (column row : UInt8) {height : Nat}
    (h : height ≤ 16) : (s.spriteCells column row height).Nodup := by
  unfold spriteCells
  apply List.nodup_flatMap.mpr
  constructor
  · intro down hdown
    apply List.Nodup.map_on _ (List.nodup_range.filter _)
    intro a ha a' ha' same
    simp only [List.mem_filter, List.mem_range] at ha ha' hdown
    exact (Frame.cell_inj ha.1 ha'.1 (by omega) (by omega) same).1
  · apply List.nodup_range.imp_of_mem
    intro d d' hd hd' apart place hplace hplace'
    simp only [List.mem_map, List.mem_filter, List.mem_range] at hplace hplace' hd hd'
    obtain ⟨a, ha, rfl⟩ := hplace
    obtain ⟨a', ha', same⟩ := hplace'
    exact apart (Frame.cell_inj ha.1 ha'.1 (by omega) (by omega) same.symm).2

namespace Guarded

@[simp] private theorem ok_bind {α β : Type} (a : α) (next : α → Except Misstep β) :
    (Except.ok a >>= next) = next a := rfl

private theorem lookUp_toArray {α : Type} {n : Nat} (cells : Vector α n) (place : Fin n) :
    lookUp cells.toArray place = .ok cells[place] := by
  unfold lookUp
  rw [Array.getElem?_eq_getElem (by simp)]
  rfl

private theorem replace_toArray {α : Type} {n : Nat} (cells : Vector α n) (place : Fin n) (cell : α) :
    replace cells.toArray place cell = .ok (cells.set place cell).toArray := by
  unfold replace
  rw [dif_pos (by simp)]
  rfl

private theorem add_ok {width a b : Nat} (h : a + b < 2 ^ width) : add width a b = .ok (a + b) := if_pos h

private theorem multiply_ok {width a b : Nat} (h : a * b < 2 ^ width) : multiply width a b = .ok (a * b) :=
  if_pos h

private theorem foldlM_ok {α β σ : Type} {shown : σ → β} {f : β → α → Except Misstep β} {g : σ → α → σ}
    {l : List α} (h : ∀ s, ∀ a ∈ l, f (shown s) a = .ok (shown (g s a))) (s : σ) :
    l.foldlM f (shown s) = .ok (shown (l.foldl g s)) := by
  induction l generalizing s with
  | nil => rfl
  | cons a l ih =>
    rw [List.foldlM_cons, h s a List.mem_cons_self]
    exact ih (fun s b hb => h s b (List.mem_cons_of_mem a hb)) (g s a)

private theorem digit_of_eq {n : Nat} {d : Fin 16} (h : n = d.val) : digit n = .ok d := by
  subst h
  exact dif_pos d.isLt

private theorem masked_digit (w : UInt16) (shift : Nat) :
    (w.toNat &&& 15 <<< shift) >>> shift = (lastDigit (w.toNat / 2 ^ shift)).val := by
  rw [Nat.shiftRight_and_distrib, Nat.shiftRight_eq_div_pow, Nat.shiftLeft_shiftRight]
  exact Nat.and_two_pow_sub_one_eq_mod _ 4

private theorem masked_byte (w : UInt16) : (w &&& 0x00FF).toUInt8 = w.toUInt8 := by
  apply UInt8.toNat_inj.mp
  rw [UInt16.toNat_toUInt8, UInt16.toNat_toUInt8, UInt16.toNat_and]
  change (w.toNat &&& 2 ^ 8 - 1) % 2 ^ 8 = _
  rw [Nat.and_two_pow_sub_one_eq_mod, Nat.mod_mod]

private theorem masked_family (w : UInt16) : (w &&& 0xF000).toNat = w.toNat / 0x1000 * 0x1000 := by
  rw [UInt16.toNat_and]
  change w.toNat &&& (2 ^ 4 - 1) * 2 ^ 12 = w.toNat / 2 ^ 12 * 2 ^ 12
  apply Nat.eq_of_testBit_eq
  intro i
  rw [Nat.testBit_and, Nat.testBit_mul_two_pow, Nat.testBit_mul_two_pow, Nat.testBit_div_two_pow,
    Nat.testBit_two_pow_sub_one]
  by_cases low : i < 12
  · simp [Nat.not_le.mpr low]
  by_cases high : i < 16
  · simp [Nat.not_lt.mp low, show i - 12 < 4 by omega]
  · have clear : w.toNat.testBit i = false := by
      apply Nat.testBit_lt_two_pow
      exact w.toNat_lt.trans_le (Nat.pow_le_pow_right (by decide) (Nat.not_lt.mp high))
    simp [Nat.not_lt.mp low, clear]

private theorem decode_eq (w : UInt16) : decode w = .ok (Instruction.decode? w) := by
  have hx : ((w &&& 0x0F00) >>> 8).toNat = (lastDigit (w.toNat / 0x100)).val := masked_digit w 8
  have hy : ((w &&& 0x00F0) >>> 4).toNat = (lastDigit (w.toNat / 0x10)).val := masked_digit w 4
  have hn : (w &&& 0x000F).toNat = (lastDigit w.toNat).val :=
    Nat.and_two_pow_sub_one_eq_mod w.toNat 4
  unfold decode
  rw [digit_of_eq hx, digit_of_eq hy, digit_of_eq hn, masked_byte, masked_family]
  unfold Instruction.decode?
  have families : w.toNat / 0x1000 < 16 := by
    have := w.toNat_lt
    omega
  generalize w.toNat / 0x1000 = family at families
  interval_cases family <;> rfl

private theorem writeSlice_bytes (m : Memory) (address : UInt16) (data : List UInt8) :
    writeSlice m.bytes.toArray address data = .ok (m.writeSlice address data).bytes.toArray := by
  induction data generalizing m address with
  | nil => rfl
  | cons byte rest ih =>
    have written : write m.bytes.toArray address byte = .ok (m.write address byte).bytes.toArray :=
      replace_toArray m.bytes (Memory.cell address) byte
    rw [writeSlice, written]
    exact ih (m.write address byte) (address + 1)

private theorem glyph_eq (digit : UInt8) : glyph digit = .ok (Memory.glyph digit) := by
  have small : (digit &&& 0x0F).toNat < 16 := by
    rw [UInt8.toNat_and]
    exact Nat.and_lt_two_pow _ (by decide : (15 : Nat) < 2 ^ 4)
  have offset : Memory.glyphHeight.toNat * (digit &&& 0x0F).toNat ≤ 75 := by
    change 5 * _ ≤ _
    omega
  unfold glyph
  rw [multiply_ok (offset.trans_lt (by decide)), ok_bind,
    add_ok ((Nat.add_le_add_left offset _).trans_lt (by decide)), ok_bind]
  apply congrArg Except.ok
  apply UInt16.toNat_inj.mp
  simp [Memory.glyph]

/-! Drawing, bit by bit and with the flag noted on the way -/

/-- A picture on which pixels are turned one by one, and whether one of them was lit by then. -/
abbrev Drawing := Frame × Bool

def Drawing.canvas (d : Drawing) : Canvas := (d.1.toArray, d.2)

def Drawing.toggle (d : Drawing) (place : Frame.Cell) : Drawing :=
  (d.1.toggle place, d.2 || d.1.isLit place)

private theorem toggle_canvas (d : Drawing) (column row : Nat) :
    toggle d.canvas column row = .ok (d.toggle (Frame.cell column row)).canvas := by
  have hrow : row % Frame.height < 32 := Nat.mod_lt _ (by decide)
  have hcolumn : column % Frame.width < 64 := Nat.mod_lt _ (by decide)
  have above : row % Frame.height * Frame.width < 32 * 64 :=
    Nat.mul_lt_mul_of_pos_right hrow (by decide)
  unfold toggle
  rw [multiply_ok (by omega), ok_bind, add_ok (by omega), ok_bind]
  have found := lookUp_toArray d.1 (Frame.cell column row)
  have turned := replace_toArray d.1 (Frame.cell column row) (d.1[Frame.cell column row] ^^^ 1)
  change (lookUp d.1.toArray (Frame.cell column row) >>= _) = _
  rw [found, ok_bind]
  change (replace d.1.toArray (Frame.cell column row) _ >>= _) = _
  rw [turned]
  rfl

private theorem drawBit_canvas (bits : UInt8) {column : Nat} (row : Nat) (d : Drawing) {across : Nat}
    (hcolumn : column < 256) (hacross : across < 8) :
    drawBit bits column row d.canvas across = .ok (if bits &&& (0x80 >>> UInt8.ofNat across) != 0
      then d.toggle (Frame.cell (column + across) row) else d).canvas := by
  have shifted : shiftRight 0x80 across = .ok (0x80 >>> UInt8.ofNat across) := if_pos hacross
  unfold drawBit
  rw [shifted, ok_bind]
  split
  · rw [add_ok (by omega), ok_bind, toggle_canvas]
  · rfl

/-- No place is turned twice, so a pixel that is met was lit before the first was turned. -/
theorem foldl_toggle {cells : List Frame.Cell} (once : cells.Nodup) (d : Drawing) :
    cells.foldl Drawing.toggle d = (cells.foldl Frame.toggle d.1, d.2 || cells.any d.1.isLit) := by
  induction cells generalizing d with
  | nil => simp
  | cons place rest ih =>
    obtain ⟨fresh, once⟩ := List.nodup_cons.mp once
    have later : rest.any (d.1.toggle place).isLit = rest.any d.1.isLit := by
      rw [Bool.eq_iff_iff, List.any_eq_true, List.any_eq_true]
      refine exists_congr fun other => and_congr_right fun hother => ?_
      have apart : place ≠ other := fun same => fresh (same ▸ hother)
      rw [d.1.isLit_toggle_ne apart]
    rw [List.foldl_cons, ih once, List.any_cons, ← Bool.or_assoc, ← later]
    rfl

end Guarded

namespace Interpreter
open Guarded

def guarded (s : Interpreter) : GuardedMachine where
  memory := s.memory.bytes.toArray
  pc := s.pc
  index := s.index
  v := s.v.toArray
  stack := s.stack
  delay := s.delay
  sound := s.sound
  frame := s.frame.toArray
  keys := s.keys.down.toArray
  redraw := s.redraw

variable (s : Interpreter)

private theorem guarded_read (address : UInt16) : s.guarded.read address = .ok (s.memory.read address) :=
  lookUp_toArray s.memory.bytes (Memory.cell address)

private theorem guarded_word (address : UInt16) : s.guarded.word address = .ok (s.memory.word address) := by
  unfold GuardedMachine.word
  rw [guarded_read, ok_bind, guarded_read]
  rfl

@[simp] private theorem guarded_register (x : Register) : s.guarded.register x = .ok (s.v.get x) :=
  lookUp_toArray s.v x

@[simp] private theorem guarded_setRegister (x : Register) (byte : UInt8) :
    s.guarded.setRegister x byte = .ok (s.setRegister x byte).guarded := by
  unfold GuardedMachine.setRegister
  have replaced : replace s.guarded.v x.val byte = .ok (s.setRegister x byte).v.toArray :=
    replace_toArray s.v x byte
  rw [replaced]
  rfl

@[simp] private theorem guarded_skipIf (condition : Bool) :
    s.guarded.skipIf condition = (s.skipIf condition).guarded := by
  cases condition <;> rfl

private theorem guarded_calculate (op : Arithmetic) (x y : Register) :
    s.guarded.calculate op x y = .ok (s.calculate op x y).guarded := by
  simp only [GuardedMachine.calculate, calculate, guarded_register, guarded_setRegister, ok_bind]
  cases (compute s.v[x] s.v[y] op).2 <;> rfl

private theorem guarded_keyDown (x : Register) : s.guarded.keyDown x = .ok (s.keys.isDown (s.keyOf x)) := by
  have low : (s.v.get x &&& 0x0F).toNat = (s.keyOf x).val :=
    Nat.and_two_pow_sub_one_eq_mod s.v[x].toNat 4
  unfold GuardedMachine.keyDown
  rw [guarded_register, ok_bind, low]
  exact lookUp_toArray s.keys.down (s.keyOf x)

private theorem guarded_drawRow {column row : Nat} (hcolumn : column < 256) (hrow : row < 256) (d : Drawing)
    {down : Nat} (hdown : down < 16) :
    s.guarded.drawRow column row d.canvas down = .ok (Drawing.canvas <|
      (((List.range 8).filter fun across =>
        s.memory.read (s.index + UInt16.ofNat down) &&& (0x80 >>> UInt8.ofNat across) != 0).map
        fun across => Frame.cell (column + across) (row + down)).foldl Drawing.toggle d) := by
  have bit (d : Drawing) (across : Nat) (h : across ∈ List.range 8) :=
    drawBit_canvas (s.memory.read (s.index + UInt16.ofNat down)) (row + down) d hcolumn
      (List.mem_range.mp h)
  have index : s.guarded.index = s.index := rfl
  unfold GuardedMachine.drawRow
  rw [index, guarded_read, ok_bind, add_ok (by omega), ok_bind, foldlM_ok bit, List.foldl_map,
    List.foldl_filter]

private theorem guarded_drawSprite (x y : Register) {height : Nat} (h : height ≤ 16) :
    s.guarded.drawSprite x y height = .ok (s.drawSprite x y height).guarded := by
  have row (d : Drawing) (down : Nat) (hdown : down ∈ List.range height) :=
    s.guarded_drawRow s.v[x].toNat_lt s.v[y].toNat_lt d ((List.mem_range.mp hdown).trans_le h)
  have rows := foldlM_ok row (s.frame, false)
  rw [← List.foldl_flatMap] at rows
  have drawn : (List.range height).foldlM (s.guarded.drawRow (s.v.get x).toNat (s.v.get y).toNat)
      (s.guarded.frame, false) =
        .ok ((s.spriteCells s.v[x] s.v[y] height).foldl Drawing.toggle (s.frame, false)).canvas := rows
  rw [foldl_toggle (s.spriteCells_nodup _ _ h)] at drawn
  unfold GuardedMachine.drawSprite
  rw [guarded_register, ok_bind, guarded_register, ok_bind, drawn, ok_bind]
  simp only [Drawing.canvas, guarded_setRegister, ok_bind, Bool.false_or]
  rfl

private theorem guarded_loadRegister (v : Vector UInt8 16) (k : Register) :
    s.guarded.loadRegister v.toArray k.val =
      .ok (v.set k.val (s.memory.read (s.index + UInt16.ofNat k.val)) k.isLt).toArray := by
  have index : s.guarded.index = s.index := rfl
  unfold GuardedMachine.loadRegister
  rw [index, guarded_read, ok_bind]
  exact replace_toArray v k _

/-- The registers once memory is read into the first `count`. -/
def loadedUpTo (count : Nat) : Vector UInt8 16 :=
  Vector.ofFn fun k => if k.val < count then s.memory.read (s.index + UInt16.ofNat k.val) else s.v[k]

private theorem loadedUpTo_zero : s.loadedUpTo 0 = s.v := by simp [loadedUpTo]

private theorem loadedUpTo_set (k : Register) :
    (s.loadedUpTo k.val).set k.val (s.memory.read (s.index + UInt16.ofNat k.val)) k.isLt =
      s.loadedUpTo (k.val + 1) := by
  apply Vector.ext
  intro j hj
  simp only [loadedUpTo, Vector.getElem_set, Vector.getElem_ofFn]
  rcases Nat.lt_trichotomy j k.val with before | rfl | after
  · rw [if_neg before.ne', if_pos before, if_pos (Nat.lt_succ_of_lt before)]
  · rw [if_pos rfl, if_pos (Nat.lt_succ_self _)]
  · rw [if_neg after.ne, if_neg after.not_gt, if_neg (Nat.not_lt.mpr after)]

private theorem guarded_loadRegisters (count : Nat) (h : count ≤ 16) :
    (List.range count).foldlM s.guarded.loadRegister s.v.toArray =
      .ok (s.loadedUpTo count).toArray := by
  induction count with
  | zero => rw [loadedUpTo_zero]; rfl
  | succ count ih =>
    have loaded := s.guarded_loadRegister (s.loadedUpTo count) ⟨count, h⟩
    rw [s.loadedUpTo_set ⟨count, h⟩] at loaded
    rw [List.range_succ, List.foldlM_append, ih (Nat.le_of_succ_le h), ok_bind, List.foldlM_cons, loaded]
    rfl

private theorem guarded_findKey : s.guarded.keys.findIdx? id = s.keys.lowest?.map Fin.val := by
  have listed : s.guarded.keys = (Key.all.map s.keys.isDown).toArray := by
    apply Array.ext
    · simp [guarded, Key.all]
    · intro k h h'
      simp [guarded, Key.all, KeyTable.isDown]
  rw [listed, List.findIdx?_toArray, List.findIdx?_map, KeyTable.lowest?,
    List.find?_eq_map_findFinIdx?_getElem, List.findIdx?_eq_map_findFinIdx?_val, Option.map_map]
  apply congrArg (Option.map · _)
  funext k
  change k.val = Key.all[k.val].val
  simp [Key.all]

private theorem guarded_writeSlice (address : UInt16) (data : List UInt8) :
    writeSlice s.guarded.memory address data = .ok (s.memory.writeSlice address data).bytes.toArray :=
  writeSlice_bytes s.memory address data

private theorem guarded_execute (random : UInt8) (i : Instruction) :
    s.guarded.execute random i = .ok ((s.execute random i).1.guarded, (s.execute random i).2) := by
  cases i with
  | hostRoutine | jump | setIndex => rfl
  | clearScreen =>
    have cleared : (s.guarded.frame.map fun _ => (0 : Pixel)) = Frame.blank.toArray := by
      apply Array.ext <;> simp [guarded, Frame.blank]
    simp only [GuardedMachine.execute, cleared]
    rfl
  | «return» =>
    have stack : s.guarded.stack = s.stack := rfl
    simp only [GuardedMachine.execute, execute, stack]
    cases s.stack <;> rfl
  | call address =>
    have stack : s.guarded.stack = s.stack := rfl
    simp only [GuardedMachine.execute, execute, stack]
    split <;> rfl
  | skipIfByte | skipUnlessByte | skipIfEqual | skipUnlessEqual | setByte | addByte | random | readDelay =>
    simp only [GuardedMachine.execute, execute, guarded_register, guarded_setRegister, guarded_skipIf,
      ok_bind]
    rfl
  | arithmetic op x y =>
    simp only [GuardedMachine.execute, guarded_calculate, ok_bind]
    rfl
  | jumpFrom address =>
    have first : lookUp s.guarded.v 0 = .ok s.v[0] := s.guarded_register 0
    simp only [GuardedMachine.execute, first, ok_bind]
    rfl
  | setDelay | setSound | addIndex =>
    simp only [GuardedMachine.execute, guarded_register, ok_bind]
    rfl
  | draw x y height =>
    simp only [GuardedMachine.execute, s.guarded_drawSprite x y height.isLt.le, ok_bind]
    rfl
  | skipIfDown | skipUnlessDown =>
    simp only [GuardedMachine.execute, guarded_keyDown, guarded_skipIf, ok_bind]
    rfl
  | awaitKey x =>
    simp only [GuardedMachine.execute, execute, guarded_findKey]
    cases s.keys.lowest? with
    | none => rfl
    | some key =>
      simp only [Option.map_some, guarded_setRegister, ok_bind]
      rfl
  | indexGlyph x =>
    simp only [GuardedMachine.execute, guarded_register, ok_bind, glyph_eq]
    rfl
  | storeDecimal x =>
    simp only [GuardedMachine.execute, guarded_register, ok_bind, guarded_writeSlice]
    rfl
  | storeRegisters x =>
    have room : x.val + 1 ≤ s.guarded.v.size :=
      (Nat.succ_le_of_lt x.isLt).trans_eq (Vector.size_toArray s.v).symm
    have sliced : slice s.guarded.v (x.val + 1) = .ok (s.v.toList.take (x.val + 1)) := if_pos room
    simp only [GuardedMachine.execute, sliced, ok_bind, guarded_writeSlice]
    rfl
  | loadRegisters x =>
    have loaded := s.guarded_loadRegisters (x.val + 1) x.isLt
    have registers : s.guarded.v = s.v.toArray := rfl
    simp only [GuardedMachine.execute, registers, loaded, ok_bind, loadedUpTo, Nat.lt_succ_iff]
    rfl

private theorem guarded_cycle (random : UInt8) :
    s.guarded.cycle random = .ok ((s.cycle random).1.guarded, (s.cycle random).2) := by
  have fetches : s.guarded.word s.guarded.pc = .ok s.nextWord := s.guarded_word s.pc
  unfold GuardedMachine.cycle cycle
  rw [fetches, ok_bind, decode_eq, ok_bind]
  cases Instruction.decode? s.nextWord with
  | none => rfl
  | some i => exact s.fetched.guarded_execute random i

private theorem guarded_tickTimers :
    s.guarded.tickTimers = .ok (s.tickTimers.1, s.tickTimers.2.guarded) := by
  have sound : s.guarded.sound = s.sound := rfl
  unfold GuardedMachine.tickTimers tickTimers
  rw [sound]
  by_cases silent : s.sound = 0
  · simp only [silent]
    rfl
  · have sounds : 0 < s.sound := UInt8.pos_iff_ne_zero.mpr silent
    have earlier : before s.sound = .ok (s.sound - 1) := if_neg silent
    rw [if_pos sounds, if_neg silent, decide_eq_true silent, earlier]
    rfl

private theorem guarded_initial : GuardedMachine.new = .ok initial.guarded := by
  have written := writeSlice_bytes Memory.zeroed Memory.fontStart Memory.font
  have zeroed : Memory.zeroed.bytes.toArray = Array.replicate Memory.size 0 := rfl
  unfold GuardedMachine.new
  rw [← zeroed, written]
  rfl

private theorem guarded_load (program : List UInt8) :
    s.guarded.load program = match load program with
      | .error e => .ok (s.guarded, .error e)
      | .ok loaded => .ok (loaded.guarded, .ok ()) := by
  unfold GuardedMachine.load load Memory.load
  rw [guarded_initial, ok_bind]
  by_cases large : Memory.maxProgram < program.length
  · rw [if_pos large, if_pos large]
    rfl
  · rw [if_neg large, if_neg large, guarded_writeSlice]
    rfl

private theorem guarded_perform (op : Operation) :
    s.guarded.perform op = .ok ((s.perform op).1.guarded, (s.perform op).2) := by
  cases op with
  | load program =>
    simp only [GuardedMachine.perform, guarded_load, perform]
    cases load program <;> rfl
  | cycle random =>
    rw [GuardedMachine.perform, guarded_cycle]
    rfl
  | tickTimers =>
    rw [GuardedMachine.perform, guarded_tickTimers]
    rfl
  | setKey key pressed =>
    have replaced : replace s.guarded.keys key.val pressed = .ok (s.keys.set key pressed).down.toArray :=
      replace_toArray s.keys.down key pressed
    rw [GuardedMachine.perform, replaced]
    rfl

private theorem guarded_performAll (ops : List Operation) :
    s.guarded.performAll ops = .ok ((s.performAll ops).1.guarded, (s.performAll ops).2) := by
  induction ops generalizing s with
  | nil => rfl
  | cons op rest ih =>
    rw [GuardedMachine.performAll, guarded_perform, ok_bind]
    change (GuardedMachine.performAll _ rest >>= _) = _
    rw [ih]
    rfl

end Interpreter

private theorem Frame.blank_plain : ∀ pixel ∈ blank, pixel = 0 ∨ pixel = 1 := by
  intro pixel h
  exact .inl (Vector.eq_of_mem_replicate h)

private theorem Frame.foldl_toggle_plain {frame : Frame} (h : ∀ pixel ∈ frame, pixel = 0 ∨ pixel = 1)
    (cells : List Cell) : ∀ pixel ∈ cells.foldl toggle frame, pixel = 0 ∨ pixel = 1 := by
  induction cells generalizing frame with
  | nil => exact h
  | cons place rest ih =>
    apply ih
    intro pixel hpixel
    rcases Vector.mem_or_eq_of_mem_set hpixel with old | rfl
    · exact h pixel old
    · rcases h frame[place] (Vector.getElem_mem _) with dark | lit
      · exact .inr (by rw [dark]; rfl)
      · exact .inl (by rw [lit]; rfl)

namespace Interpreter

/-- Each pixel is zero or one, and no more calls are open than the stack has room for. -/
structure InBounds (s : Interpreter) : Prop where
  pixels : ∀ pixel ∈ s.frame, pixel = 0 ∨ pixel = 1
  calls : s.stack.length ≤ stackDepth

private theorem initial_inBounds : InBounds initial := ⟨Frame.blank_plain, Nat.zero_le _⟩

namespace InBounds
variable {s : Interpreter}

private theorem execute (h : InBounds s) (random : UInt8) (i : Instruction) :
    InBounds (s.execute random i).1 := by
  cases i with
  | clearScreen => exact ⟨Frame.blank_plain, h.calls⟩
  | draw x y height => exact ⟨Frame.foldl_toggle_plain h.pixels _, h.calls⟩
  | «return» =>
    simp only [Interpreter.execute]
    cases hs : s.stack with
    | nil => exact h
    | cons caller callers =>
      have deeper := h.calls
      rw [hs, List.length_cons] at deeper
      exact ⟨h.pixels, (Nat.le_succ _).trans deeper⟩
  | call address =>
    simp only [Interpreter.execute]
    split
    · exact h
    · next room => exact ⟨h.pixels, Nat.lt_of_le_of_ne h.calls room⟩
  | skipIfByte | skipUnlessByte | skipIfEqual | skipUnlessEqual | skipIfDown | skipUnlessDown =>
    simp only [Interpreter.execute, skipIf]
    split <;> exact ⟨h.pixels, h.calls⟩
  | arithmetic op x y =>
    simp only [Interpreter.execute, calculate]
    split <;> exact ⟨h.pixels, h.calls⟩
  | awaitKey x =>
    simp only [Interpreter.execute]
    split <;> exact ⟨h.pixels, h.calls⟩
  | loadRegisters x =>
    simp only [Interpreter.execute]
    exact ⟨h.pixels, h.calls⟩
  | _ => exact ⟨h.pixels, h.calls⟩

private theorem perform (h : InBounds s) (op : Operation) : InBounds (s.perform op).1 := by
  cases op with
  | load program =>
    simp only [Interpreter.perform]
    split
    · exact h
    · next loaded hloaded =>
      rw [(load_eq_ok_iff.mp hloaded).2]
      exact ⟨Frame.blank_plain, Nat.zero_le _⟩
  | cycle random =>
    have fetched : InBounds s.fetched := ⟨h.pixels, h.calls⟩
    simp only [Interpreter.perform, cycle]
    split
    · exact fetched.execute random _
    · exact fetched
  | tickTimers | setKey => exact ⟨h.pixels, h.calls⟩

end InBounds

/-- From a new machine on, whatever it is asked for, in any order: no check of the guarded machine fails,
it answers what the interpreter answers and ends with the parts of the interpreter. Its arrays have kept
their sizes, each pixel is zero or one, and at most sixteen calls are open. -/
theorem never_missteps (ops : List Operation) :
    ∃ last : GuardedMachine,
      (do (← GuardedMachine.new).performAll ops) = .ok (last, (initial.performAll ops).2) ∧
      last = (initial.performAll ops).1.guarded ∧
      last.memory.size = 4096 ∧ last.v.size = 16 ∧ last.keys.size = 16 ∧
      last.frame.size = 2048 ∧ (∀ pixel ∈ last.frame, pixel = 0 ∨ pixel = 1) ∧
      last.stack.length ≤ 16 := by
  have kept : InBounds (initial.performAll ops).1 :=
    performAll_invariant (fun _ op h => h.perform op) initial_inBounds ops
  refine ⟨(initial.performAll ops).1.guarded, ?_, rfl, ?_⟩
  · rw [guarded_initial, Guarded.ok_bind, guarded_performAll]
  · refine ⟨Vector.size_toArray _, Vector.size_toArray _, Vector.size_toArray _,
      Vector.size_toArray _, ?_, kept.calls⟩
    intro pixel h
    exact kept.pixels pixel ((Vector.mem_toArray_iff pixel _).mp h)

end Interpreter

end Chip8Console
