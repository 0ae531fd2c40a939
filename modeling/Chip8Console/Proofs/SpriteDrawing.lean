import Chip8Console.Proofs.NoMisstep

/-!
Sprites. A sprite covers the pixels whose bits are set in memory, counted around the edges of the picture
and of the RAM. Drawing it turns exactly these pixels, each once, so that drawing it again takes it back.
-/
namespace Chip8Console

namespace Frame

private theorem getElem_foldl_toggle {cells : List Cell} (once : cells.Nodup) (frame : Frame)
    (place : Cell) :
    (cells.foldl toggle frame).get place = if place ∈ cells then frame.get place ^^^ 1 else frame.get place := by
  induction cells generalizing frame with
  | nil => rfl
  | cons first rest ih =>
    obtain ⟨fresh, once⟩ := List.nodup_cons.mp once
    rw [List.foldl_cons, ih once]
    by_cases here : place = first
    · subst here
      rw [if_neg fresh, if_pos List.mem_cons_self]
      exact Vector.getElem_set_self _
    · have kept : (frame.toggle first).get place = frame.get place :=
        Vector.getElem_set_ne _ _ fun same => here (Fin.ext same.symm)
      rw [kept]
      simp only [List.mem_cons, here, false_or]

private theorem eq_cell_iff (place : Cell) (column row : Nat) :
    place = cell column row ↔ place.val % 64 = column % 64 ∧ place.val / 64 = row % 32 := by
  have hrow : row % 32 < 32 := Nat.mod_lt _ (by decide)
  rw [Fin.ext_iff]
  change place.val = row % 32 * 64 + column % 64 ↔ _
  omega

end Frame

/-- The byte in the cell of the RAM that a number names, around the top. -/
def Memory.cellByte (m : Memory) (n : Nat) : UInt8 := m.bytes.get ⟨n % size, Nat.mod_lt _ (by decide)⟩

/-- An address that wraps names the same cell as one that is counted on. -/
theorem Memory.read_add (m : Memory) (address : UInt16) (offset : Nat) :
    m.read (address + UInt16.ofNat offset) = m.cellByte (address.toNat + offset) := by
  have hcell : (cell (address + UInt16.ofNat offset)).val = (address.toNat + offset) % size := by
    simp only [cell, size, UInt16.toNat_add, UInt16.toNat_ofNat']
    omega
  simp only [read, cellByte, Fin.getElem_fin, hcell]
  rfl

namespace Interpreter

/-- Whether a sprite of `height` rows at (`column`, `row`) covers a pixel: one of its bits, in memory from
I on, is set and falls on it, around the edges of the picture. -/
def Covers (s : Interpreter) (column row height : Nat) (place : Frame.Cell) : Prop :=
  ∃ down < height, ∃ across < 8,
    s.memory.cellByte (s.index.toNat + down) &&& (0x80 >>> UInt8.ofNat across) ≠ 0 ∧
      place.val % 64 = (column + across) % 64 ∧ place.val / 64 = (row + down) % 32

instance (s : Interpreter) (column row height : Nat) : DecidablePred (s.Covers column row height) :=
  fun _ => inferInstanceAs (Decidable (∃ down < height, ∃ across < 8, _))

private theorem mem_spriteCells (s : Interpreter) (column row : UInt8) (height : Nat) (place : Frame.Cell) :
    place ∈ s.spriteCells column row height ↔ s.Covers column.toNat row.toNat height place := by
  simp only [spriteCells, Covers, List.mem_flatMap, List.mem_map, List.mem_filter, List.mem_range,
    Memory.read_add, bne_iff_ne, and_assoc, eq_comm (b := place), Frame.eq_cell_iff]

section
variable (s : Interpreter) (x y : Register) {height : Nat}

private theorem drawSprite_frame (h : height ≤ 16) (place : Frame.Cell) :
    (s.drawSprite x y height).frame.get place =
      s.frame.get place ^^^ if s.Covers (s.v.get x).toNat (s.v.get y).toNat height place then 1 else 0 := by
  have turned : (s.drawSprite x y height).frame.get place = _ :=
    Frame.getElem_foldl_toggle (s.spriteCells_nodup (s.v.get x) (s.v.get y) h) s.frame place
  rw [turned]
  simp only [mem_spriteCells]
  split
  · rfl
  · rw [UInt8.xor_zero]

private theorem drawSprite_flag : (s.drawSprite x y height).v.get flagRegister =
    flag ((s.spriteCells (s.v.get x) (s.v.get y) height).any s.frame.isLit) :=
  Vector.getElem_set_self _

private theorem drawSprite_flag_cases (height : Nat) :
    (∃ place, s.Covers (s.v.get x).toNat (s.v.get y).toNat height place ∧ s.frame.get place ≠ 0) ∧
        (s.drawSprite x y height).v.get flagRegister = 1 ∨
      (∀ place, s.Covers (s.v.get x).toNat (s.v.get y).toNat height place → s.frame.get place = 0) ∧
        (s.drawSprite x y height).v.get flagRegister = 0 := by
  have met : (s.spriteCells (s.v.get x) (s.v.get y) height).any s.frame.isLit = true ↔
      ∃ place, s.Covers (s.v.get x).toNat (s.v.get y).toNat height place ∧ s.frame.get place ≠ 0 := by
    simp only [List.any_eq_true, mem_spriteCells, Frame.isLit, bne_iff_ne]
    rfl
  rw [drawSprite_flag]
  by_cases h : ∃ place, s.Covers (s.v.get x).toNat (s.v.get y).toNat height place ∧ s.frame.get place ≠ 0
  · rw [met.mpr h]
    exact .inl ⟨h, rfl⟩
  · rw [Bool.eq_false_iff.mpr (mt met.mp h)]
    exact .inr ⟨fun place covered => not_not.mp fun lit => h ⟨place, covered, lit⟩, rfl⟩

private theorem drawSprite_register {z : Register} (hz : z ≠ flagRegister) :
    (s.drawSprite x y height).v.get z = s.v.get z :=
  Vector.getElem_set_ne flagRegister.isLt z.isLt fun same => hz (Fin.ext same.symm)

/-- A sprite drawn again where it was drawn restores the picture, and one of the two flags tells of each
covered pixel: it is lit either before the first drawing or before the second. -/
theorem drawSprite_twice (h : height ≤ 16) (hx : x ≠ flagRegister) (hy : y ≠ flagRegister)
    {t : Interpreter} (hmemory : t.memory = (s.drawSprite x y height).memory)
    (hindex : t.index = (s.drawSprite x y height).index) (hv : t.v = (s.drawSprite x y height).v)
    (hframe : t.frame = (s.drawSprite x y height).frame) :
    (t.drawSprite x y height).frame = s.frame ∧
      ((s.drawSprite x y height).v.get flagRegister = 0 → (t.drawSprite x y height).v.get flagRegister = 0 →
        ∀ place, ¬ s.Covers (s.v.get x).toNat (s.v.get y).toNat height place) := by
  -- the first drawing leaves alone what the place of the sprite and its bits depend on
  have same : t.Covers (t.v.get x).toNat (t.v.get y).toNat height =
      s.Covers (s.v.get x).toNat (s.v.get y).toNat height := by
    have hvx : t.v.get x = s.v.get x := by rw [hv, s.drawSprite_register x y hx]
    have hvy : t.v.get y = s.v.get y := by rw [hv, s.drawSprite_register x y hy]
    funext place
    simp only [Covers, hvx, hvy, hmemory, hindex]
    rfl
  constructor
  · apply Vector.ext
    intro i hi
    have first := s.drawSprite_frame x y h ⟨i, hi⟩
    have second := t.drawSprite_frame x y h ⟨i, hi⟩
    simp only [same, hframe, first, UInt8.xor_assoc, UInt8.xor_self, UInt8.xor_zero] at second
    exact second
  · intro clear clear' place covered
    have dark : s.frame.get place = 0 := by
      rcases s.drawSprite_flag_cases x y height with ⟨-, met⟩ | ⟨dark, -⟩
      · rw [clear] at met
        cases met
      · exact dark place covered
    have lit : t.frame.get place = 1 := by
      rw [hframe, s.drawSprite_frame x y h, dark, if_pos covered]
      rfl
    rcases t.drawSprite_flag_cases x y height with ⟨-, met⟩ | ⟨dark', -⟩
    · rw [clear'] at met
      cases met
    · rw [same] at dark'
      rw [dark' place covered] at lit
      cases lit

end

/-- Over every drawing instruction in every state: the pixels that the sprite covers change between lit and
dark, the flag tells whether one of them was lit before, the picture is pending, and nothing else changes
but the program counter. Turning pixel after pixel, with the flag raised where one is lit as it is turned,
comes to the same. With the flag register in neither operand, the same sprite drawn again restores the
picture, and both flags are clear only if the sprite covers no pixel. -/
theorem draws_by_exclusive_or (s : Interpreter) (x y : Register) (n : Fin 16) (random : UInt8)
    (fetches : s.nextWord = (Instruction.draw x y n).word) :
    let covered := s.Covers (s.v.get x).toNat (s.v.get y).toNat n.val
    let after := (s.cycle random).1
    (∀ place, after.frame.get place = s.frame.get place ^^^ if covered place then 1 else 0) ∧
    ((∃ place, covered place ∧ s.frame.get place ≠ 0) ∧ after.v.get flagRegister = 1 ∨
      (∀ place, covered place → s.frame.get place = 0) ∧ after.v.get flagRegister = 0) ∧
    s.cycle random = ({ s.setRegister flagRegister (after.v.get flagRegister) with
      pc := s.pc + 2
      frame := after.frame
      redraw := true }, none) ∧
    (s.spriteCells (s.v.get x) (s.v.get y) n.val).foldl Guarded.Drawing.toggle (s.frame, false) =
      (after.frame, after.v.get flagRegister != 0) ∧
    (x ≠ flagRegister → y ≠ flagRegister → ∀ (t : Interpreter) (random' : UInt8),
      t.memory = after.memory → t.index = after.index → t.v = after.v → t.frame = after.frame →
      t.nextWord = s.nextWord →
      let again := (t.cycle random').1
      again.frame = s.frame ∧
        (after.v.get flagRegister = 0 → again.v.get flagRegister = 0 → ∀ place, ¬ covered place)) := by
  intro covered after
  have decoded (t : Interpreter) (random : UInt8) (h : t.nextWord = (Instruction.draw x y n).word) :
      t.cycle random = (t.fetched.drawSprite x y n.val, none) := by
    simp only [cycle, h, Instruction.decode?_draw]
    rfl
  have hafter : after = s.fetched.drawSprite x y n.val := by simp only [after, decoded s random fetches]
  have low : n.val ≤ 16 := n.isLt.le
  have turned (place : Frame.Cell) :
      after.frame.get place = s.frame.get place ^^^ if covered place then 1 else 0 := by
    rw [hafter]
    exact s.fetched.drawSprite_frame x y low place
  refine ⟨turned, ?_, ?_, ?_, ?_⟩
  · rw [hafter]
    exact s.fetched.drawSprite_flag_cases x y n
  · rw [decoded s random fetches, hafter, drawSprite_flag]
    rfl
  · rw [Guarded.foldl_toggle (s.spriteCells_nodup _ _ low), hafter, drawSprite_flag]
    have asked (met : Bool) : (false || met) = (flag met != 0) := by cases met <;> rfl
    rw [asked]
    rfl
  · intro hx hy t random' hmemory hindex hv hframe hword again
    have hagain : again = t.fetched.drawSprite x y n.val := by
      simp only [again, decoded t random' (hword.trans fetches)]
    rw [hafter] at hmemory hindex hv hframe
    rw [hagain, hafter]
    exact s.fetched.drawSprite_twice x y low hx hy hmemory hindex hv hframe

/-- Two rows in the bottom right corner, the second of them from memory around the top of the RAM: they go
on in the other corners, meet a lit pixel there and are taken back by the next word. -/
theorem draws_by_exclusive_or_of_corner :
    let s : Interpreter := { (initial.setRegister 0 62).setRegister 1 31 with
      memory := Memory.zeroed.writeSlice 0x0FFF [0xF0, 0x90, 0xD0, 0x12, 0xD0, 0x12]
      pc := 0x0001
      index := 0x0FFF
      frame := Frame.single (Frame.cell 0 31) }
    let after := (s.cycle 0).1
    let again := (after.cycle 0).1
    s.nextWord = (Instruction.draw 0 1 2).word ∧ after.nextWord = s.nextWord ∧
    after.frame.get (Frame.cell 0 31) = 0 ∧ after.frame.get (Frame.cell 1 0) = 1 ∧ after.v.get flagRegister = 1 ∧
    again.frame = s.frame := by
  intro s after again
  have fetches : s.nextWord = (Instruction.draw 0 1 2).word := by decide +kernel
  have repeats : after.nextWord = s.nextWord := by decide +kernel
  obtain ⟨turned, flagged, -, -, twice⟩ := draws_by_exclusive_or s 0 1 2 0 fetches
  obtain ⟨restored, -⟩ := twice (by decide) (by decide) after 0 rfl rfl rfl rfl repeats
  have lit : s.frame.get (Frame.cell 0 31) = 1 := Vector.getElem_set_self _
  have covered : s.Covers (s.v.get 0).toNat (s.v.get 1).toNat (2 : Fin 16).val
      (Frame.cell 0 31) := by decide +kernel
  have corner : after.frame.get (Frame.cell 0 31) = 0 := by
    rw [turned, if_pos covered, lit]
    rfl
  have opposite : after.frame.get (Frame.cell 1 0) = 1 := (turned _).trans (by decide +kernel)
  rcases flagged with ⟨-, met⟩ | ⟨dark, -⟩
  · exact ⟨fetches, repeats, corner, opposite, met, restored⟩
  · rw [dark _ covered] at lit
    cases lit

end Interpreter

end Chip8Console
