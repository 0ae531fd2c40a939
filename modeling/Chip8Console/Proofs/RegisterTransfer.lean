import Chip8Console.Proofs.SliceWrites

/-!
Registers that are stored to memory and read back. The store writes a slice and the load reads byte by byte,
and both come to the same cells, also where these lie around the top of the RAM or of all addresses.
-/
namespace Chip8Console.Interpreter
variable (s : Interpreter) (x : Register) (random : UInt8)

private theorem storeRegisters_byte {k : Register} (upTo : k ≤ x) :
    (s.execute random (.storeRegisters x)).1.memory.cellByte (s.index.toNat + k.val) = s.v.get k := by
  have fits : (s.v.toList.take (x.val + 1)).length ≤ Memory.size := by
    rw [length_upTo]
    exact Nat.le_trans x.isLt (by decide)
  have within : k.val < (s.v.toList.take (x.val + 1)).length := by
    rw [length_upTo]
    exact Nat.lt_succ_of_le upTo
  apply (Memory.cellByte_writeSlice fits within s.memory).trans
  rw [List.getElem_take]
  exact Vector.getElem_toList _

private theorem storeRegisters_outside {n : Nat}
    (outside : ∀ k ≤ x, n % Memory.size ≠ (s.index.toNat + k.val) % Memory.size) :
    (s.execute random (.storeRegisters x)).1.memory.cellByte n = s.memory.cellByte n := by
  apply Memory.cellByte_outside
  intro k within
  rw [length_upTo] at within
  exact outside ⟨k, Nat.lt_of_lt_of_le within x.isLt⟩ (Nat.le_of_lt_succ within)

private theorem loadRegisters_register (k : Register) : (s.execute random (.loadRegisters x)).1.v.get k =
    if k ≤ x then s.memory.cellByte (s.index.toNat + k.val) else s.v.get k := by
  rw [← Memory.read_add]
  exact Vector.getElem_ofFn k.isLt

/-- Hundreds, tens and units are digits that make up the byte. -/
theorem decimalDigits_spec (byte : UInt8) : ∃ a b c : UInt8, decimalDigits byte = [a, b, c] ∧
    a ≤ 9 ∧ b ≤ 9 ∧ c ≤ 9 ∧ 100 * a.toNat + 10 * b.toNat + c.toNat = byte.toNat := by
  have range := byte.toNat_lt
  refine ⟨byte / 100, byte / 10 % 10, byte % 10, rfl, ?_, ?_, ?_, ?_⟩
  · rw [UInt8.le_iff_toNat_le, UInt8.toNat_div]
    change _ / 100 ≤ 9
    omega
  · rw [UInt8.le_iff_toNat_le, UInt8.toNat_mod]
    exact Nat.le_of_lt_succ (Nat.mod_lt _ (by decide))
  · rw [UInt8.le_iff_toNat_le, UInt8.toNat_mod]
    exact Nat.le_of_lt_succ (Nat.mod_lt _ (by decide))
  · rw [UInt8.toNat_mod, UInt8.toNat_mod, UInt8.toNat_div, UInt8.toNat_div]
    change 100 * (_ / 100) + 10 * (_ / 10 % 10) + _ % 10 = _
    omega

private theorem storeDecimal_bytes : ∃ a b c : UInt8,
    a ≤ 9 ∧ b ≤ 9 ∧ c ≤ 9 ∧ 100 * a.toNat + 10 * b.toNat + c.toNat = (s.v.get x).toNat ∧
    let stored := (s.execute random (.storeDecimal x)).1
    stored.memory.cellByte s.index.toNat = a ∧ stored.memory.cellByte (s.index.toNat + 1) = b ∧
    stored.memory.cellByte (s.index.toNat + 2) = c ∧
    ∀ n, (∀ k < 3, n % Memory.size ≠ (s.index.toNat + k) % Memory.size) →
      stored.memory.cellByte n = s.memory.cellByte n := by
  obtain ⟨a, b, c, written, ha, hb, hc, sum⟩ := decimalDigits_spec (s.v.get x)
  refine ⟨a, b, c, ha, hb, hc, sum, ?_⟩
  intro stored
  have hstored : stored.memory = s.memory.writeSlice s.index [a, b, c] :=
    congrArg (s.memory.writeSlice s.index) written
  have digit (k : Nat) (within : k < [a, b, c].length) :
      stored.memory.cellByte (s.index.toNat + k) = [a, b, c][k] := by
    rw [hstored]
    apply Memory.cellByte_writeSlice
    exact (by decide : 3 ≤ Memory.size)
  refine ⟨digit 0 (by simp), digit 1 (by simp), digit 2 (by simp), ?_⟩
  intro n outside
  rw [hstored]
  apply Memory.cellByte_outside
  exact outside

/-- Over every state and every register up to which is stored: the registers go to the cells from I on, around
the top of the RAM, and nothing else changes. In every state with this memory and this index register, loading
up to the same register gives them back and changes nothing else. The decimal digits of a register go to three
cells from I on, and nothing else changes. Cycles that fetch the words of these instructions carry them out. -/
theorem stored_registers_come_back (x : Register) :
    (∀ (s : Interpreter) (random : UInt8),
      let stored := (s.execute random (.storeRegisters x)).1
      s.execute random (.storeRegisters x) = ({ s with memory := stored.memory }, none) ∧
      (∀ k ≤ x, stored.memory.cellByte (s.index.toNat + k.val) = s.v.get k) ∧
      (∀ n, (∀ k ≤ x, n % Memory.size ≠ (s.index.toNat + k.val) % Memory.size) →
        stored.memory.cellByte n = s.memory.cellByte n) ∧
      ∀ (t : Interpreter) (random' : UInt8), t.memory = stored.memory → t.index = s.index →
        let loaded := (t.execute random' (.loadRegisters x)).1
        t.execute random' (.loadRegisters x) = ({ t with v := loaded.v }, none) ∧
        (∀ k ≤ x, loaded.v.get k = s.v.get k) ∧ ∀ k, x < k → loaded.v.get k = t.v.get k) ∧
    (∀ (s : Interpreter) (random : UInt8),
      let stored := (s.execute random (.storeDecimal x)).1
      s.execute random (.storeDecimal x) = ({ s with memory := stored.memory }, none) ∧
      ∃ a b c : UInt8,
        a ≤ 9 ∧ b ≤ 9 ∧ c ≤ 9 ∧ 100 * a.toNat + 10 * b.toNat + c.toNat = (s.v.get x).toNat ∧
        stored.memory.cellByte s.index.toNat = a ∧ stored.memory.cellByte (s.index.toNat + 1) = b ∧
        stored.memory.cellByte (s.index.toNat + 2) = c ∧
        ∀ n, (∀ k < 3, n % Memory.size ≠ (s.index.toNat + k) % Memory.size) →
          stored.memory.cellByte n = s.memory.cellByte n) ∧
    ∀ (s : Interpreter) (random : UInt8), ∀ i ∈ [.storeRegisters x, .loadRegisters x, .storeDecimal x],
      s.nextWord = i.word → s.cycle random =
        { s with redraw := false, pc := s.pc + 2 : Interpreter }.execute random i := by
  refine ⟨fun s random => ?_, fun s random => ?_, fun s random i named fetches => ?_⟩
  · intro stored
    refine ⟨rfl, fun k upTo => s.storeRegisters_byte x random upTo,
      fun n outside => s.storeRegisters_outside x random outside, ?_⟩
    intro t random' hmemory hindex loaded
    refine ⟨rfl, fun k upTo => ?_, fun k above => ?_⟩
    · rw [t.loadRegisters_register, if_pos upTo, hmemory, hindex]
      exact s.storeRegisters_byte x random upTo
    · rw [t.loadRegisters_register, if_neg (Fin.not_le.mpr above)]
  · exact ⟨rfl, s.storeDecimal_bytes x random⟩
  · simp only [List.mem_cons, List.not_mem_nil, or_false] at named
    rcases named with rfl | rfl | rfl
    all_goals exact cycle_of_word rfl fetches random

/-- Four registers stored across the top of the RAM and of all addresses, then lost, come back. The digits of
the last of them go to the same cells. -/
theorem stored_registers_come_back_of_top :
    let s : Interpreter := { initial with
      memory := Memory.zeroed.writeSlice 0x200 [0xF3, 0x55]
      index := 0xFFFE
      v := (Vector.replicate 16 7).set 3 254 }
    let stored := (s.execute 0 (.storeRegisters 3)).1
    let t : Interpreter := { stored with v := Vector.replicate 16 1 }
    let loaded := (t.execute 0 (.loadRegisters 3)).1
    s.nextWord = (Instruction.storeRegisters 3).word ∧
    s.cycle 0 = { s with redraw := false, pc := 0x202 : Interpreter }.execute 0 (.storeRegisters 3) ∧
    stored.memory.cellByte 0x0001 = 254 ∧ loaded.v.get 3 = 254 ∧ loaded.v.get 4 = 1 ∧
    (loaded.execute 0 (.storeDecimal 3)).1.memory.cellByte 0x0FFE = 2 := by
  intro s stored t loaded
  have fetches : s.nextWord = (Instruction.storeRegisters 3).word := by decide +kernel
  obtain ⟨transfers, digits, carriedOut⟩ := stored_registers_come_back 3
  obtain ⟨-, bytes, -, back⟩ := transfers s 0
  obtain ⟨-, restored, kept⟩ := back t 0 rfl rfl
  have last : loaded.v.get 3 = 254 := restored 3 (Fin.le_refl 3)
  obtain ⟨-, a, b, c, ha, hb, hc, sum, hundreds, -⟩ := digits loaded 0
  have two : a = 2 := by
    rw [last] at sum
    rw [UInt8.le_iff_toNat_le] at hb hc
    change _ + _ + _ = 254 at sum
    change _ ≤ 9 at hb hc
    apply UInt8.toNat_inj.mp
    change a.toNat = 2
    omega
  rw [two] at hundreds
  have start : s.index.toNat = 0xFFFE := rfl
  have start' : loaded.index.toNat = 0xFFFE := rfl
  rw [start] at bytes
  rw [start'] at hundreds
  refine ⟨fetches, carriedOut s 0 _ List.mem_cons_self fetches, ?_, last, kept 4 (by decide), ?_⟩
  · exact (Memory.cellByte_congr (by decide) _).trans (bytes 3 (Fin.le_refl 3))
  · exact (Memory.cellByte_congr (by decide) _).trans hundreds

end Chip8Console.Interpreter
