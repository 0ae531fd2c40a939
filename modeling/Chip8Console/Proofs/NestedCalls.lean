import Chip8Console.Proofs.InstructionEffects
import Chip8Console.Proofs.MachineOperations

/-!
Calls and returns nest. What lay on the stack when a call was made stays under it until the call returns.
The return is the first moment at which the stack is as deep as before the call, and then the program goes
on behind the call.
-/
namespace Chip8Console.Interpreter

/-- A cycle leaves the stack alone, opens one call or ends the innermost one. -/
theorem cycle_stack (s : Interpreter) (random : UInt8) :
    let after := (s.cycle random).1
    after.stack = s.stack ∨
      ((∃ a, s.nextWord = (Instruction.call a).word) ∧ after.stack = (s.pc + 2) :: s.stack) ∨
      (s.nextWord = Instruction.word .return ∧ s.stack = after.pc :: after.stack) := by
  cases read : Instruction.decode? s.nextWord with
  | none =>
    left
    simp only [cycle, read]
    rfl
  | some i =>
    rw [cycle_of_decode? read]
    rcases (s.fetched.execute_effect random i).stack with kept | ⟨a, rfl, called⟩ | ⟨rfl, returned⟩
    · exact .inl kept
    · exact .inr (.inl ⟨⟨a, Instruction.word_eq_of_decode? read rfl⟩, called⟩)
    · exact .inr (.inr ⟨Instruction.word_eq_of_decode? read rfl, returned⟩)

def Operation.isLoad : Operation → Bool
  | .load _ => true
  | _ => false

/-- Below the return address of an open call nothing changes before its return. -/
theorem perform_stack {s : Interpreter} {back : UInt16} {outer : List UInt16}
    (inside : back :: outer <:+ s.stack) {op : Operation} (stays : op.isLoad = false) :
    back :: outer <:+ (s.perform op).1.stack ∨
      ((s.perform op).1.stack = outer ∧ (s.perform op).1.pc = back ∧
        s.nextWord = Instruction.word .return ∧ ∃ random, op = .cycle random) := by
  cases op with
  | load program => cases stays
  | tickTimers | setKey => exact .inl inside
  | cycle random =>
    have cycled : (s.perform (.cycle random)).1 = (s.cycle random).1 := rfl
    rw [cycled]
    rcases s.cycle_stack random with kept | ⟨-, called⟩ | ⟨fetches, returned⟩
    · exact .inl (kept ▸ inside)
    · exact .inl (called ▸ inside.trans (List.suffix_cons _ _))
    · rw [returned] at inside
      -- either the address that is taken off is that of this call, or it lies above it
      rcases List.suffix_cons_iff.mp inside with own | deeper
      · obtain ⟨hback, houter⟩ := List.cons.inj own
        exact .inr ⟨houter.symm, hback.symm, fetches, random, rfl⟩
      · exact .inl deeper

/-- The last operation is carried out on what those before it left. -/
theorem performAll_concat (s : Interpreter) (ops : List Operation) (op : Operation) :
    (s.performAll (ops ++ [op])).1 = ((s.performAll ops).1.perform op).1 := by
  induction ops generalizing s with
  | nil => rfl
  | cons first rest ih => exact ih (s.perform first).1

def stateAfter (s : Interpreter) (ops : List Operation) (count : Nat) : Interpreter :=
  (s.performAll (ops.take count)).1

/-- Each state comes from the one before by the operation between them. -/
theorem stateAfter_succ (s : Interpreter) {ops : List Operation} {count : Nat} (h : count < ops.length) :
    s.stateAfter ops (count + 1) = ((s.stateAfter ops count).perform ops[count]).1 := by
  unfold stateAfter
  rw [List.take_succ_eq_append_getElem h, performAll_concat]

/-- Until the stack is as deep again as before a call it holds the return address and what lay under it,
and it comes to be so by the return alone. -/
theorem stateAfter_stack {s : Interpreter} {back : UInt16} {outer : List UInt16}
    (called : s.stack = back :: outer) {ops : List Operation} (stays : ∀ op ∈ ops, op.isLoad = false)
    {count : Nat} (within : count ≤ ops.length)
    (unreturned : ∀ earlier < count, (s.stateAfter ops earlier).stack.length ≠ outer.length) :
    back :: outer <:+ (s.stateAfter ops count).stack ∨
      ((s.stateAfter ops count).stack = outer ∧ (s.stateAfter ops count).pc = back ∧
        ∃ earlier random, count = earlier + 1 ∧ ops[earlier]? = some (.cycle random) ∧
          (s.stateAfter ops earlier).nextWord = Instruction.word .return) := by
  induction count with
  | zero => exact .inl (called ▸ List.suffix_rfl)
  | succ count ih =>
    have still := unreturned count (Nat.lt_succ_self count)
    rcases ih (Nat.le_of_succ_le within) fun earlier h => unreturned earlier (Nat.lt_succ_of_lt h) with
      inside | ⟨returned, -⟩
    · rw [s.stateAfter_succ within]
      rcases perform_stack inside (stays _ (List.getElem_mem within)) with
        inside | ⟨hstack, hpc, fetches, random, hop⟩
      · exact .inl inside
      · exact .inr ⟨hstack, hpc, count, random, rfl, by rw [List.getElem?_eq_getElem within, hop], fetches⟩
    · exact absurd (congrArg List.length returned) still

/-- Over every call that finds room on the stack, and whatever cycles, timers and keys come after it:
until the stack is as deep as before the call it is deeper and holds unchanged what lay on it when the call
was made. The first moment at which it is as deep again comes by a return, with the stack from before the
call and the program counter behind it. A call with a full stack and a return with an empty one are passed
over. -/
theorem calls_nest :
    (∀ (s : Interpreter) (nnn : UInt16) (random : UInt8) (ops : List Operation),
      s.nextWord = (Instruction.call nnn).word → s.stack.length < stackDepth →
      (∀ op ∈ ops, op.isLoad = false) →
      let state := (s.cycle random).1.stateAfter ops
      ∀ count ≤ ops.length, (∀ earlier < count, (state earlier).stack.length ≠ s.stack.length) →
        ((state count).stack.length ≠ s.stack.length → s.stack.length < (state count).stack.length ∧
          (s.pc + 2) :: s.stack <:+ (state count).stack) ∧
        ((state count).stack.length = s.stack.length →
          (state count).stack = s.stack ∧ (state count).pc = s.pc + 2 ∧
          ∃ earlier random', count = earlier + 1 ∧ ops[earlier]? = some (.cycle random') ∧
            (state earlier).nextWord = Instruction.word .return)) ∧
    (∀ (s : Interpreter) (nnn : UInt16) (random : UInt8),
      s.nextWord = (Instruction.call nnn).word → s.stack.length = stackDepth →
      s.cycle random = ({ s with redraw := false, pc := s.pc + 2 }, some (.stackOverflow s.pc))) ∧
    ∀ (s : Interpreter) (random : UInt8), s.nextWord = Instruction.word .return → s.stack = [] →
      s.cycle random = ({ s with redraw := false, pc := s.pc + 2 }, some (.emptyStack s.pc)) := by
  have origin (s : Interpreter) : s.fetched.origin = s.pc := UInt16.add_sub_cancel _ _
  refine ⟨fun s nnn random ops fetches room stays => ?_, fun s nnn random fetches full => ?_,
    fun s random fetches empty => ?_⟩
  · intro state count within unreturned
    have decoded := Instruction.decode?_call nnn
    rw [← fetches] at decoded
    have called : (s.cycle random).1.stack = (s.pc + 2) :: s.stack := by
      have more : s.fetched.stack.length ≠ stackDepth := Nat.ne_of_lt room
      simp only [cycle, decoded, execute, if_neg more]
      rfl
    rcases stateAfter_stack called stays within unreturned with inside | ⟨hstack, hpc, returned⟩
    · have deeper : s.stack.length < (state count).stack.length := inside.length_le
      exact ⟨fun _ => ⟨deeper, inside⟩, fun same => absurd same (Nat.ne_of_gt deeper)⟩
    · exact ⟨fun apart => absurd (congrArg List.length hstack) apart, fun _ => ⟨hstack, hpc, returned⟩⟩
  · have decoded := Instruction.decode?_call nnn
    rw [← fetches] at decoded
    have none_left : s.fetched.stack.length = stackDepth := full
    simp only [cycle, decoded, execute, if_pos none_left, origin]
    rfl
  · have decoded := (Instruction.decode?_eq_return_iff _).mpr fetches
    have nothing : s.fetched.stack = [] := empty
    simp only [cycle, decoded, execute, nothing, origin]
    rfl

/-- A call calls in turn the word behind itself, where a return lies: it is carried out for the inner call
and then for the outer one. A key and the timers come in between. -/
theorem calls_nest_of_two :
    let program := [0x22, 0x06, 0x00, 0x00, 0x00, 0x00, 0x22, 0x08, 0x00, 0xEE]
    let s : Interpreter := { initial with memory := Memory.initial.writeSlice 0x200 program }
    let ops : List Operation := [.cycle 0, .tickTimers, .cycle 0, .setKey 0x3 true, .cycle 0]
    let last := (s.cycle 0).1.stateAfter ops 5
    s.nextWord = (Instruction.call 0x206).word ∧ s.stack.length < stackDepth ∧
    (∀ op ∈ ops, op.isLoad = false) ∧
    (∀ earlier < 5, ((s.cycle 0).1.stateAfter ops earlier).stack.length ≠ s.stack.length) ∧
    last.stack = [] ∧ last.pc = 0x202 := by
  intro program s ops last
  have room : s.stack.length < stackDepth := by decide
  have stays : ∀ op ∈ ops, op.isLoad = false := by decide
  obtain ⟨fetches, unreturned, empty⟩ : s.nextWord = (Instruction.call 0x206).word ∧
      (∀ earlier < 5, ((s.cycle 0).1.stateAfter ops earlier).stack.length ≠ s.stack.length) ∧
      last.stack.length = s.stack.length := by decide +kernel
  obtain ⟨-, again⟩ := calls_nest.1 s 0x206 0 ops fetches room stays 5 (by decide) unreturned
  obtain ⟨hstack, hpc, -⟩ := again empty
  have returned : last.stack = [] := hstack
  have behind : last.pc = 0x202 := hpc
  exact ⟨fetches, room, stays, unreturned, returned, behind⟩

end Chip8Console.Interpreter
