import Chip8Console.Proofs.GrowingLog
import Chip8Console.Proofs.NestedCalls
import Chip8Console.Proofs.TimerClock
import Mathlib.Order.Bounds.Defs

/-!
Waits for a key. While no key is down the program stays where it is, for any number of cycles, and only the
timers run on. The first cycle that finds keys down takes the lowest of them, and the program goes on.
-/
namespace Chip8Console

private theorem KeyTable.lowest?_eq_none {table : KeyTable} (up : ∀ key, table.isDown key = false) :
    table.lowest? = none :=
  List.find?_eq_none.mpr fun key _ => Bool.eq_false_iff.mp (up key)

private theorem KeyTable.isLeast_of_lowest? {table : KeyTable} {key : Key} (h : table.lowest? = some key) :
    IsLeast {key | table.isDown key = true} key := by
  have inOrder (j : Nat) (inside : j < Key.all.length) : (Key.all[j]).val = j := by simp [Key.all]
  obtain ⟨down, place, inside, rfl, before⟩ := List.find?_eq_some_iff_getElem.mp h
  refine ⟨down, fun lower lowerDown => ?_⟩
  by_contra earlier
  have first : lower.val < place := by
    rw [Fin.not_le, Fin.lt_def, inOrder] at earlier
    exact earlier
  have up := before lower.val first
  have itself : Key.all[lower.val] = lower := Fin.ext (inOrder _ _)
  rw [itself, Bool.not_eq_true'] at up
  exact Bool.false_ne_true (up.symm.trans lowerDown)

namespace Interpreter

namespace Operation

def isTick : Operation → Bool
  | .tickTimers => true
  | _ => false

/-- Whether the operation runs the program or the timers, or lets a key go. -/
def isQuiet : Operation → Bool
  | .load _ => false
  | .cycle _ | .tickTimers => true
  | .setKey _ pressed => !pressed

/-- Whether the operations pressed the key and have not let it go since. -/
def Hold (ops : List Operation) (key : Key) : Prop :=
  ∃ earlier later, ops = earlier ++ .setKey key true :: later ∧ .setKey key false ∉ later

private theorem not_hold_nil (key : Key) : ¬ Hold [] key := by
  rintro ⟨earlier, later, split, -⟩
  exact List.append_ne_nil_of_right_ne_nil earlier (List.cons_ne_nil _ later) split.symm

private theorem hold_concat {ops : List Operation} {op : Operation} {key : Key} :
    Hold (ops ++ [op]) key ↔ op = .setKey key true ∨ Hold ops key ∧ op ≠ .setKey key false := by
  constructor
  · rintro ⟨earlier, later, split, unreleased⟩
    obtain ⟨later, rfl, before⟩ | ⟨rfl, -, same⟩ := append_eq_append_singleton split
    · rw [List.mem_append, not_or, List.mem_singleton] at unreleased
      exact .inr ⟨⟨earlier, later, before, unreleased.1⟩, Ne.symm unreleased.2⟩
    · exact .inl same.symm
  · rintro (rfl | ⟨⟨earlier, later, rfl, unreleased⟩, other⟩)
    · exact ⟨ops, [], rfl, List.not_mem_nil⟩
    · refine ⟨earlier, later ++ [op], by rw [List.append_assoc, List.cons_append], ?_⟩
      rw [List.mem_append, not_or, List.mem_singleton]
      exact ⟨unreleased, Ne.symm other⟩

/-- No cycle among the operations comes while a key is down. -/
def Unheard (ops : List Operation) : Prop :=
  ∀ earlier random later, ops = earlier ++ .cycle random :: later → ∀ key, ¬ Hold earlier key

private theorem unheard_concat {ops : List Operation} {op : Operation} :
    Unheard (ops ++ [op]) ↔ Unheard ops ∧ ∀ random, op = .cycle random → ∀ key, ¬ Hold ops key := by
  constructor
  · intro h
    constructor
    · rintro earlier random later rfl
      exact h earlier random (later ++ [op]) (by rw [List.append_assoc, List.cons_append])
    · rintro random rfl
      exact h ops random [] rfl
  · rintro ⟨h, last⟩ earlier random later split
    obtain ⟨later, rfl, before⟩ | ⟨rfl, rfl, same⟩ := append_eq_append_singleton split
    · exact h earlier random later before
    · exact last random same.symm

private theorem not_hold_of_isQuiet {ops : List Operation} (quiet : ∀ op ∈ ops, op.isQuiet = true)
    (key : Key) :
    ¬ Hold ops key := by
  rintro ⟨earlier, later, rfl, -⟩
  cases quiet _ (List.mem_append_right earlier List.mem_cons_self)

private theorem unheard_of_isQuiet {ops : List Operation} (quiet : ∀ op ∈ ops, op.isQuiet = true) :
    Unheard ops := by
  rintro earlier random later rfl
  exact not_hold_of_isQuiet fun op hop => quiet op (List.mem_append_left _ hop)

end Operation

variable {s t u : Interpreter} {x : Register}

private theorem cycle_unheard (fetches : s.nextWord = (Instruction.awaitKey x).word)
    (up : ∀ key, s.keys.isDown key = false) (random : UInt8) :
    s.cycle random = ({ s with redraw := false }, none) := by
  have back : s.fetched.pc - 2 = s.pc := UInt16.add_sub_cancel _ _
  rw [cycle_of_word rfl fetches]
  simp only [Instruction.trimmed, execute]
  rw [show s.fetched.keys.lowest? = none from KeyTable.lowest?_eq_none up]
  simp only [back]
  rfl

private theorem cycle_heard (fetches : s.nextWord = (Instruction.awaitKey x).word) {key : Key}
    (found : s.keys.lowest? = some key) (random : UInt8) :
    s.cycle random =
      ({ s.setRegister x (UInt8.ofNat key.val) with redraw := false, pc := s.pc + 2 }, none) := by
  rw [cycle_of_word rfl fetches]
  simp only [Instruction.trimmed, execute]
  rw [show s.fetched.keys.lowest? = some key from found]
  rfl

/-- The program has come no further from `s` to `t`, and the timers have run for so many ticks. -/
structure Stood (s t : Interpreter) (ticks : Nat) : Prop where
  same : t = { s with delay := t.delay, sound := t.sound, keys := t.keys, redraw := t.redraw }
  delay : t.delay.toNat = s.delay.toNat - ticks
  sound : t.sound.toNat = s.sound.toNat - ticks

namespace Stood
variable {ticks more : Nat}

private theorem refl (s : Interpreter) : s.Stood s 0 := ⟨rfl, rfl, rfl⟩

private theorem trans (h : s.Stood t ticks) (h' : t.Stood u more) : s.Stood u (ticks + more) where
  same := by
    rw [h'.same, h.same]
  delay := by rw [h'.delay, h.delay, Nat.sub_sub]
  sound := by rw [h'.sound, h.sound, Nat.sub_sub]

private theorem pc (h : s.Stood t ticks) : t.pc = s.pc := by rw [h.same]

private theorem nextWord (h : s.Stood t ticks) : t.nextWord = s.nextWord := by
  rw [h.same]
  rfl

end Stood

/-- The keys that are down are those that the operations hold down, whatever the program did in between. -/
theorem performAll_keys (up : ∀ key, s.keys.isDown key = false) {ops : List Operation}
    (stays : ∀ op ∈ ops, op.isLoad = false) (key : Key) :
    (s.performAll ops).1.keys.isDown key = true ↔ Operation.Hold ops key := by
  induction ops using List.reverseRecOn with
  | nil => exact iff_of_false (Bool.eq_false_iff.mp (up key)) (Operation.not_hold_nil key)
  | append_singleton ops op ih =>
    have before := ih fun op hop => stays op (List.mem_append_left _ hop)
    rw [performAll_concat, Operation.hold_concat, ← before]
    cases op with
    | load program => cases stays _ (List.mem_append_right ops List.mem_cons_self)
    | tickTimers => simp [perform, tickTimers]
    | cycle random => simp [perform, cycle_keys]
    | setKey other pressed =>
      have changed : ((s.performAll ops).1.perform (.setKey other pressed)).1.keys.isDown key =
          if other = key then pressed else (s.performAll ops).1.keys.isDown key :=
        KeyTable.isDown_set _ other key pressed
      rw [changed]
      by_cases same : other = key
      · cases pressed <;> simp [same]
      · simp [same]

private theorem performAll_up (up : ∀ key, s.keys.isDown key = false) {ops : List Operation}
    (stays : ∀ op ∈ ops, op.isLoad = false) (noneHeld : ∀ key, ¬ Operation.Hold ops key) (key : Key) :
    (s.performAll ops).1.keys.isDown key = false :=
  Bool.eq_false_iff.mpr (mt (performAll_keys up stays key).mp (noneHeld key))

private theorem performAll_stood (fetches : s.nextWord = (Instruction.awaitKey x).word)
    (up : ∀ key, s.keys.isDown key = false) {ops : List Operation}
    (stays : ∀ op ∈ ops, op.isLoad = false) (unheard : Operation.Unheard ops) :
    s.Stood (s.performAll ops).1 (ops.countP Operation.isTick) := by
  induction ops using List.reverseRecOn with
  | nil => exact .refl s
  | append_singleton ops op ih =>
    obtain ⟨unheard, last⟩ := Operation.unheard_concat.mp unheard
    have stays' : ∀ op ∈ ops, op.isLoad = false := fun op hop => stays op (List.mem_append_left _ hop)
    have soFar := ih stays' unheard
    rw [performAll_concat, List.countP_append]
    apply soFar.trans
    cases op with
    | load program => cases stays _ (List.mem_append_right ops List.mem_cons_self)
    | cycle random =>
      have allUp := performAll_up up stays' (last random rfl)
      have cycled := congrArg Prod.fst (cycle_unheard (soFar.nextWord.trans fetches) allUp random)
      change (performAll s ops).1.Stood (Interpreter.cycle _ random).1 0
      rw [cycled]
      exact ⟨rfl, rfl, rfl⟩
    | tickTimers =>
      obtain ⟨delay, sound, -⟩ := (s.performAll ops).1.tickTimers_counts
      exact ⟨rfl, delay, sound⟩
    | setKey key pressed => exact ⟨rfl, rfl, rfl⟩

/-- Over every machine with no key down whose next instruction waits for one: after any cycles, steps of the
timers and releases the program stands where it did, the timers are down by the steps, and the next cycle
changes at most the redraw flag. If between the cycles keys go down as well, the first cycle that finds some
of them down puts the lowest into the register of the instruction, and the program goes on behind it. -/
theorem waits_for_lowest_key (fetches : s.nextWord = (Instruction.awaitKey x).word)
    (up : ∀ key, s.keys.isDown key = false) :
    (∀ ops : List Operation, (∀ op ∈ ops, op.isQuiet = true) →
      let t := (s.performAll ops).1
      s.Stood t (ops.countP Operation.isTick) ∧ (∀ key, t.keys.isDown key = false) ∧
      ∀ random, t.cycle random = ({ t with redraw := false }, none)) ∧
    ∀ ops : List Operation, (∀ op ∈ ops, op.isLoad = false) → Operation.Unheard ops →
      let t := (s.performAll ops).1
      s.Stood t (ops.countP Operation.isTick) ∧ (∀ key, t.keys.isDown key = true ↔ Operation.Hold ops key) ∧
      ∀ random,
        ((∀ key, ¬ Operation.Hold ops key) → t.cycle random = ({ t with redraw := false }, none)) ∧
        ((∃ key, Operation.Hold ops key) → ∃ key, IsLeast {key | Operation.Hold ops key} key ∧
          t.cycle random =
            ({ t.setRegister x (UInt8.ofNat key.val) with redraw := false, pc := s.pc + 2 }, none)) := by
  constructor
  · intro ops quiet t
    have stays : ∀ op ∈ ops, op.isLoad = false := by
      intro op hop
      have still := quiet op hop
      cases op with
      | load program => cases still
      | _ => rfl
    have unheard := Operation.unheard_of_isQuiet quiet
    have stood := performAll_stood fetches up stays unheard
    have allUp := performAll_up up stays (Operation.not_hold_of_isQuiet quiet)
    exact ⟨stood, allUp, cycle_unheard (stood.nextWord.trans fetches) allUp⟩
  · intro ops stays unheard t
    have stood : s.Stood t _ := performAll_stood fetches up stays unheard
    have keys (key : Key) : t.keys.isDown key = true ↔ Operation.Hold ops key := performAll_keys up stays key
    have waiting := stood.nextWord.trans fetches
    refine ⟨stood, keys, fun random => ⟨fun noneHeld => ?_, fun ⟨other, otherHeld⟩ => ?_⟩⟩
    · exact cycle_unheard waiting (performAll_up up stays noneHeld) random
    · cases found : t.keys.lowest? with
      | none =>
        have allUp := List.find?_eq_none.mp found other (List.mem_finRange other)
        exact absurd ((keys other).mpr otherHeld) allUp
      | some key =>
        have least := KeyTable.isLeast_of_lowest? found
        simp only [keys] at least
        refine ⟨key, least, (cycle_heard waiting found random).trans ?_⟩
        rw [stood.pc]

/-- A wait that lies across the top of all addresses. Two keys go down at once while it lasts, after a third
that was let go again before a cycle could find it. -/
theorem waits_for_lowest_key_of_top :
    let s : Interpreter := { initial with
      memory := Memory.zeroed.writeSlice 0x0FFF [0xF3, 0x0A]
      pc := 0xFFFF
      delay := 1 }
    let quiet : List Operation := [.cycle 0, .tickTimers, .setKey 0x4 false, .cycle 0, .tickTimers]
    let ops : List Operation := quiet ++ [.setKey 0x1 true] ++ [.setKey 0x1 false] ++ [.cycle 0] ++
      [.setKey 0xB true] ++ [.setKey 0x4 true]
    let t := (s.performAll ops).1
    s.nextWord = (Instruction.awaitKey 3).word ∧ (∀ key, s.keys.isDown key = false) ∧
    (∀ op ∈ quiet, op.isQuiet = true) ∧ (s.performAll quiet).1.pc = 0xFFFF ∧
    (∀ op ∈ ops, op.isLoad = false) ∧ Operation.Unheard ops ∧ t.pc = 0xFFFF ∧ t.delay = 0 ∧
    s.pc + 2 = 0x0001 ∧ t.cycle 0 = ({ t.setRegister 3 0x04 with redraw := false, pc := s.pc + 2 }, none) := by
  intro s quiet ops t
  have fetches : s.nextWord = (Instruction.awaitKey 3).word := by decide +kernel
  have up : ∀ key, s.keys.isDown key = false := KeyTable.isDown_released
  have still : ∀ op ∈ quiet, op.isQuiet = true := List.all_eq_true.mp rfl
  have stays : ∀ op ∈ ops, op.isLoad = false := by simp [ops, quiet, Operation.isLoad]
  have letGo (key : Key) : ¬ Operation.Hold (quiet ++ [.setKey 0x1 true] ++ [.setKey 0x1 false]) key := by
    rw [Operation.hold_concat, Operation.hold_concat]
    rintro (other | ⟨pressed | ⟨held, -⟩, unreleased⟩)
    · cases other
    · cases pressed
      exact unreleased rfl
    · exact Operation.not_hold_of_isQuiet still key held
  have unheard : Operation.Unheard ops := by
    simp only [ops, Operation.unheard_concat, reduceCtorEq, IsEmpty.forall_iff, implies_true, and_true]
    exact ⟨Operation.unheard_of_isQuiet still, fun _ _ => letGo⟩
  obtain ⟨quietly, heard⟩ := waits_for_lowest_key fetches up
  obtain ⟨stood, keys, next⟩ := heard ops stays unheard
  obtain ⟨key, ⟨held, least⟩, done⟩ := (next 0).2 ⟨0x4, _, [], rfl, List.not_mem_nil⟩
  refine ⟨fetches, up, still, (quietly quiet still).1.pc, stays, unheard, stood.pc, ?_, by decide, ?_⟩
  · exact UInt8.toNat_inj.mp stood.delay
  · have atMost : key ≤ 0x4 := least ⟨_, [], rfl, List.not_mem_nil⟩
    have onlyOne : ∀ key ≤ 0x4, t.keys.isDown key = true → key = 0x4 := by decide +kernel
    rw [onlyOne key atMost ((keys key).mpr held)] at done
    exact done

end Interpreter

end Chip8Console
