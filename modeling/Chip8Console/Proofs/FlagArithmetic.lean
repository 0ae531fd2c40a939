import Chip8Console.Proofs.InstructionEffects

/-!
The flag of the arithmetic instructions. Result and flag are computed from the registers as they were before
the instruction, and the flag is written last, so that both are right also where an operand is the flag
register or where the two operands are one register.
-/
namespace Chip8Console

/-- What is left of `left` once `right` is taken away, in bytes, with the flag of a difference: it is set
where nothing had to be borrowed. -/
structure Arithmetic.Leaves (left right result flag : Nat) : Prop where
  difference : (result : Int) = ((left : Int) - right) % 256
  unborrowed : flag = 1 ↔ right ≤ left

/-- What an operation that sets the flag makes of the numbers in Vx and Vy, in whole numbers. -/
def Arithmetic.Law (vx vy result flag : Nat) : Arithmetic → Prop
  | add => 256 * flag + result = vx + vy
  | subtract => Leaves vx vy result flag
  | subtractFrom => Leaves vy vx result flag
  | shiftRight => 2 * result + flag = vx
  | shiftLeft => 256 * flag + result = 2 * vx
  | copy | or | and | xor => False

namespace Interpreter

private theorem toNat_flag (condition : Bool) : (flag condition).toNat = condition.toNat := by
  cases condition <;> rfl

private theorem leaves_sub (left right : UInt8) :
    Arithmetic.Leaves left.toNat right.toNat (left - right).toNat (flag (decide (right ≤ left))).toNat where
  difference := by
    have hleft := left.toNat_lt
    have hright := right.toNat_lt
    rw [UInt8.toNat_sub]
    omega
  unborrowed := by
    rw [toNat_flag, Bool.toNat_eq_one, decide_eq_true_eq]
    exact UInt8.le_iff_toNat_le

/-- The flag of an operation is a bit, and with the result it accounts for the operands. -/
theorem compute_law (vx vy : UInt8) {op : Arithmetic} (sets : op.setsFlag = true) :
    ∃ result bit : UInt8, compute vx vy op = (result, some bit) ∧ bit.toNat ≤ 1 ∧
      op.Law vx.toNat vy.toNat result.toNat bit.toNat := by
  have hx := vx.toNat_lt
  have hy := vy.toNat_lt
  have bit (condition : Bool) : (flag condition).toNat ≤ 1 := by
    rw [toNat_flag]
    exact condition.toNat_le
  cases op with
  | copy | or | and | xor => cases sets
  | add =>
    refine ⟨_, _, rfl, bit _, ?_⟩
    simp only [Arithmetic.Law, toNat_flag, UInt8.toNat_add]
    by_cases carries : 256 ≤ vx.toNat + vy.toNat <;> simp [carries] <;> omega
  | subtract => exact ⟨_, _, rfl, bit _, leaves_sub vx vy⟩
  | subtractFrom => exact ⟨_, _, rfl, bit _, leaves_sub vy vx⟩
  | shiftRight =>
    have half : (vx >>> 1).toNat = vx.toNat / 2 := by
      rw [UInt8.toNat_shiftRight]
      exact Nat.shiftRight_eq_div_pow vx.toNat 1
    have low : (vx &&& 1).toNat = vx.toNat % 2 := by
      rw [UInt8.toNat_and]
      exact Nat.and_one_is_mod vx.toNat
    refine ⟨_, _, rfl, ?_, ?_⟩
    · omega
    · simp only [Arithmetic.Law, half, low]
      omega
  | shiftLeft =>
    have double : (vx <<< 1).toNat = 2 * vx.toNat % 256 := by
      rw [UInt8.toNat_shiftLeft, Nat.mul_comm]
      exact congrArg (· % 256) (Nat.shiftLeft_eq vx.toNat 1)
    have high : (vx >>> 7).toNat = vx.toNat / 128 := by
      rw [UInt8.toNat_shiftRight]
      exact Nat.shiftRight_eq_div_pow vx.toNat 7
    refine ⟨_, _, rfl, ?_, ?_⟩
    · omega
    · simp only [Arithmetic.Law, double, high]
      omega

private theorem get_setRegister (s : Interpreter) (x z : Register) (byte : UInt8) :
    (s.setRegister x byte).v.get z = if x = z then byte else s.v.get z := by
  by_cases same : x = z
  · rw [if_pos same, ← same]
    exact Vector.getElem_set_self x.isLt
  · rw [if_neg same]
    exact Vector.getElem_set_ne x.isLt z.isLt (Fin.val_ne_of_ne same)

private theorem calculate_of_compute {s : Interpreter} {x y : Register} {op : Arithmetic}
    {result bit : UInt8} (computed : compute (s.v.get x) (s.v.get y) op = (result, some bit)) :
    s.calculate op x y = (s.setRegister x result).setRegister flagRegister bit := by
  have indexed : compute s.v[x] s.v[y] op = (result, some bit) := computed
  simp only [calculate, indexed]

/-- Over every state and every two registers, one of them or both the flag register or not: a cycle that
fetches an arithmetic instruction with a flag goes by the registers as they were before. It leaves the flag in
the flag register and the result in Vx, if that is another register. But for these two registers, the program
counter and the redraw flag nothing changes. -/
theorem flags_under_aliasing (s : Interpreter) (x y : Register) {op : Arithmetic} (sets : op.setsFlag = true)
    (fetches : s.nextWord = (Instruction.arithmetic op x y).word) :
    ∃ result bit : UInt8, bit.toNat ≤ 1 ∧
      op.Law (s.v.get x).toNat (s.v.get y).toNat result.toNat bit.toNat ∧
      ∀ random,
        let after := (s.cycle random).1
        s.cycle random = ({ s with v := after.v, redraw := false, pc := s.pc + 2 }, none) ∧
        after.v.get flagRegister = bit ∧ (x ≠ flagRegister → after.v.get x = result) ∧
        ∀ z, z ≠ x → z ≠ flagRegister → after.v.get z = s.v.get z := by
  obtain ⟨result, bit, computed, small, law⟩ := compute_law (s.v.get x) (s.v.get y) sets
  refine ⟨result, bit, small, law, fun random => ?_⟩
  have carriedOut : s.cycle random =
      ((s.fetched.setRegister x result).setRegister flagRegister bit, none) := by
    rw [cycle_of_word rfl fetches]
    exact congrArg (·, none) (calculate_of_compute computed)
  rw [carriedOut]
  refine ⟨rfl, ?_, fun other => ?_, fun z apart unflagged => ?_⟩
  · rw [get_setRegister, if_pos rfl]
  · rw [get_setRegister, if_neg other.symm, get_setRegister, if_pos rfl]
  · rw [get_setRegister, if_neg unflagged.symm, get_setRegister, if_neg apart.symm]
    rfl

/-- The flag register is added to itself across the top of all addresses, and is taken from another register
that is less: the flag is right both times, and the difference is too. -/
theorem flags_under_aliasing_of_flag_register :
    let memory := Memory.zeroed.writeSlice 0x0FFF [0x8F, 0xF4, 0x81, 0xF5]
    let s : Interpreter := { (initial.setRegister flagRegister 200).setRegister 1 8 with memory, pc := 0xFFFF }
    let t : Interpreter := { s with pc := 0x0001 }
    s.nextWord = (Instruction.arithmetic .add flagRegister flagRegister).word ∧
    (s.cycle 0).1.v.get flagRegister = 1 ∧ (s.cycle 0).1.v.get 1 = 8 ∧ (s.cycle 0).1.pc = 0x0001 ∧
    t.nextWord = (Instruction.arithmetic .subtract 1 flagRegister).word ∧
    (t.cycle 0).1.v.get flagRegister = 0 ∧ (t.cycle 0).1.v.get 1 = 64 := by
  intro memory s t
  have fetches : s.nextWord = (Instruction.arithmetic .add flagRegister flagRegister).word := by decide +kernel
  have fetches' : t.nextWord = (Instruction.arithmetic .subtract 1 flagRegister).word := by decide +kernel
  obtain ⟨sum, carry, -, accounts, added⟩ := s.flags_under_aliasing flagRegister flagRegister rfl fetches
  obtain ⟨rest, unborrowed, small, ⟨difference, flagged⟩, subtracted⟩ :=
    t.flags_under_aliasing 1 flagRegister rfl fetches'
  obtain ⟨moved, flag, -, others⟩ := added 0
  obtain ⟨-, flag', result', -⟩ := subtracted 0
  have hsum := sum.toNat_lt
  change 256 * carry.toNat + sum.toNat = 200 + 200 at accounts
  change (rest.toNat : Int) = ((8 : Nat) - (200 : Nat)) % 256 at difference
  change unborrowed.toNat = 1 ↔ 200 ≤ 8 at flagged
  refine ⟨fetches, ?_, others 1 (by decide) (by decide), (congrArg (·.1.pc) moved).trans (by decide), fetches', ?_, ?_⟩
  · rw [flag]
    apply UInt8.toNat_inj.mp
    change carry.toNat = 1
    omega
  · rw [flag']
    apply UInt8.toNat_inj.mp
    change unborrowed.toNat = 0
    omega
  · rw [result' (by decide)]
    apply UInt8.toNat_inj.mp
    change rest.toNat = 64
    omega

end Interpreter

end Chip8Console
