import Chip8Console.Proofs.KeyAgreement
import Mathlib.Data.List.Destutter
import Mathlib.Data.List.DropRight

/-!
The keypad over whole sequences of host keys. Each slot is a switch of its own: it is as the last event
on its character left it, what is told of it are the events that changed it, and events on the other
characters are as good as absent.
-/
namespace Chip8Console.KeyTable

inductive Stroke where
  /-- a host character goes down or up -/
  | key (c : Char) (pressed : Bool)
  | reset
deriving DecidableEq, Repr

namespace Stroke

/-- Whether the stroke bears on a slot: its character lies over the slot, or it resets all of them. -/
def concerns (slot : Key) : Stroke → Bool
  | key c _ => c.toLower == slot.host
  | reset => true

def turn? : Stroke → Option Bool
  | key _ pressed => some pressed
  | reset => none

end Stroke

/-- One stroke, with the slot whose change is told. -/
def stroke (table : KeyTable) : Stroke → Option Key × KeyTable
  | .key c pressed => table.hostKey c pressed
  | .reset => (none, released)

def after (table : KeyTable) (strokes : List Stroke) : KeyTable :=
  strokes.foldl (fun table s => (table.stroke s).2) table

def told (table : KeyTable) : List Stroke → List (Stroke × Option Key)
  | [] => []
  | s :: strokes => (s, (table.stroke s).1) :: told (table.stroke s).2 strokes

def sinceReset (strokes : List Stroke) : List Stroke := strokes.rtakeWhile fun s => s != .reset

def events (slot : Key) (strokes : List Stroke) : List Bool :=
  (strokes.filter (Stroke.concerns slot)).filterMap Stroke.turn?

/-- The changes of a slot that were told, oldest first. -/
def transitions (slot : Key) (told : List (Stroke × Option Key)) : List Bool :=
  (told.filter fun t => t.2 == some slot).filterMap fun t => t.1.turn?

private theorem after_concat (table : KeyTable) (strokes : List Stroke) (s : Stroke) :
    table.after (strokes ++ [s]) = ((table.after strokes).stroke s).2 := by
  simp only [after, List.foldl_append, List.foldl_cons, List.foldl_nil]

private theorem events_append (slot : Key) (strokes later : List Stroke) :
    events slot (strokes ++ later) = events slot strokes ++ events slot later := by
  simp only [events, List.filter_append, List.filterMap_append]

private theorem isDown_stroke_of_not_concerns {slot : Key} {s : Stroke} (h : s.concerns slot = false)
    (table : KeyTable) :
    (table.stroke s).2.isDown slot = table.isDown slot ∧ (table.stroke s).1 ≠ some slot := by
  cases s with
  | key c pressed =>
    have other : c.toLower ≠ slot.host := by simpa [Stroke.concerns] using h
    constructor
    · rw [stroke, isDown_hostKey, if_neg other]
    · exact fun told => other (hostKey_eq_some_iff.mp told).1
  | reset => cases h

private theorem stroke_of_concerns {slot : Key} {s : Stroke} (h : s.concerns slot = true)
    {table other : KeyTable} (same : table.isDown slot = other.isDown slot) :
    (table.stroke s).2.isDown slot = (other.stroke s).2.isDown slot ∧
      (table.stroke s).1 = (other.stroke s).1 := by
  cases s with
  | key c pressed =>
    have here : c.toLower = slot.host := by simpa [Stroke.concerns] using h
    have under : Key.ofChar? c = some slot := Key.ofChar?_eq_some_iff.mpr here
    constructor
    · rw [stroke, stroke, isDown_hostKey, isDown_hostKey, if_pos here, if_pos here]
    · have changed : (table.change slot pressed).1 = (other.change slot pressed).1 :=
        congrArg (· != pressed) same
      simp only [stroke, hostKey, under, changed]
  | reset => exact ⟨rfl, rfl⟩

private theorem told_filter (slot : Key) (strokes : List Stroke) {table other : KeyTable}
    (same : table.isDown slot = other.isDown slot) :
    ((table.told strokes).filter fun t => t.1.concerns slot) =
      other.told (strokes.filter (Stroke.concerns slot)) := by
  induction strokes generalizing table other with
  | nil => rfl
  | cons s strokes ih =>
    cases h : s.concerns slot with
    | true =>
      obtain ⟨down, answer⟩ := stroke_of_concerns h same
      simp only [told, List.filter_cons, h, if_true, ih down, answer]
    | false =>
      have down := (isDown_stroke_of_not_concerns h table).1
      simp only [told, List.filter_cons, h, Bool.false_eq_true, if_false, ih (down.trans same)]

private theorem events_cons (slot : Key) (c : Char) (pressed : Bool) (strokes : List Stroke) :
    events slot (.key c pressed :: strokes) =
      if c.toLower = slot.host then pressed :: events slot strokes else events slot strokes := by
  simp only [events, List.filter_cons, Stroke.concerns, beq_iff_eq]
  split <;> rfl

private theorem transitions_cons (slot : Key) (c : Char) (pressed : Bool) (answer : Option Key)
    (told : List (Stroke × Option Key)) :
    transitions slot ((.key c pressed, answer) :: told) =
      if answer = some slot then pressed :: transitions slot told else transitions slot told := by
  simp only [transitions, List.filter_cons, beq_iff_eq]
  split <;> rfl

private theorem transitions_told (slot : Key) {strokes : List Stroke} (unbroken : .reset ∉ strokes)
    (table : KeyTable) :
    table.isDown slot :: transitions slot (table.told strokes) =
      (events slot strokes).destutter' (· ≠ ·) (table.isDown slot) := by
  induction strokes generalizing table with
  | nil => rfl
  | cons s strokes ih =>
    rw [List.mem_cons, not_or] at unbroken
    cases s with
    | reset => exact absurd rfl unbroken.1
    | key c pressed =>
      have rest := ih unbroken.2 (table.hostKey c pressed).2
      rw [isDown_hostKey] at rest
      have answer : (table.hostKey c pressed).1 = some slot ↔
          c.toLower = slot.host ∧ table.isDown slot ≠ pressed := hostKey_eq_some_iff
      rw [told, stroke, transitions_cons, events_cons]
      by_cases here : c.toLower = slot.host
      · rw [if_pos here] at rest ⊢
        by_cases changed : table.isDown slot ≠ pressed
        · rw [if_pos (answer.mpr ⟨here, changed⟩), rest, List.destutter'_cons_pos _ changed]
        · rw [if_neg fun h => changed (answer.mp h).2, List.destutter'_cons_neg _ changed,
            not_not.mp changed, rest]
      · rw [if_neg here] at rest ⊢
        rw [if_neg fun h => here (answer.mp h).1, rest]

private theorem isDown_after (slot : Key) (strokes : List Stroke) :
    (after released strokes).isDown slot = downAfter (events slot (sinceReset strokes)) := by
  induction strokes using List.reverseRecOn with
  | nil => exact isDown_released slot
  | append_singleton strokes s ih =>
    rw [after_concat]
    cases s with
    | reset =>
      rw [sinceReset, List.rtakeWhile_concat_neg _ _ _ (by simp)]
      exact isDown_released slot
    | key c pressed =>
      rw [sinceReset, List.rtakeWhile_concat_pos _ _ _ rfl, ← sinceReset, events_append, stroke,
        isDown_hostKey, events_cons]
      split
      · exact (downAfter_concat _ _).symm
      · rw [ih, show events slot [] = [] from rfl, List.append_nil]

private theorem after_of_reset {earlier : List Stroke}
    (fresh : earlier = [] ∨ earlier.getLast? = some .reset) :
    after released earlier = released := by
  obtain rfl | last := fresh
  · rfl
  · obtain ⟨before, rfl⟩ := List.getLast?_eq_some_iff.mp last
    exact after_concat released before .reset

/-- Over every sequence of host keys and resets: a slot is down exactly if the last event on its
character since the last reset was a press. A further event is answered with a slot exactly if it is on
the character over that slot and changes the slot, and it changes no slot that it is not answered with.
Between two resets what is told of a slot is its events with repeats left out, beginning with a press, so
that presses and releases alternate. And whatever else happens, the events on a slot are answered as they
would be if there were no others. -/
theorem tells_transitions (strokes : List Stroke) :
    let table := after released strokes
    (∀ slot, table.isDown slot = downAfter (events slot (sinceReset strokes))) ∧
    (∀ c pressed,
      let answered := table.hostKey c pressed
      (∀ slot, answered.1 = some slot ↔
        c.toLower = slot.host ∧ answered.2.isDown slot ≠ table.isDown slot) ∧
      ∀ slot, answered.1 ≠ some slot → answered.2.isDown slot = table.isDown slot) ∧
    (∀ earlier between later, strokes = earlier ++ between ++ later →
      earlier = [] ∨ earlier.getLast? = some .reset → .reset ∉ between →
        ∀ slot,
          let heard := transitions slot ((after released earlier).told between)
          false :: heard = (events slot between).destutter' (· ≠ ·) false ∧ Alternates heard) ∧
    ∀ slot, ((told released strokes).filter fun t => t.1.concerns slot) =
      told released (strokes.filter (Stroke.concerns slot)) := by
  intro table
  refine ⟨fun slot => isDown_after slot strokes, fun c pressed => ?answer, ?between,
    fun slot => told_filter slot strokes rfl⟩
  case answer =>
    intro answered
    have down (slot : Key) : answered.2.isDown slot =
        if c.toLower = slot.host then pressed else table.isDown slot := isDown_hostKey ..
    have told (slot : Key) : answered.1 = some slot ↔
        c.toLower = slot.host ∧ table.isDown slot ≠ pressed := hostKey_eq_some_iff
    refine ⟨fun slot => ?_, fun slot untold => ?_⟩
    · rw [told, down]
      refine and_congr_right fun here => ?_
      rw [if_pos here]
      exact ne_comm
    · rw [down]
      split
      · next here => exact (not_not.mp fun changed => untold ((told slot).mpr ⟨here, changed⟩)).symm
      · rfl
  case between =>
    intro earlier between later _ fresh unbroken slot heard
    have noRepeats := transitions_told slot unbroken (after released earlier)
    rw [after_of_reset fresh, isDown_released] at noRepeats
    have same : false :: heard = (events slot between).destutter' (· ≠ ·) false := by
      rw [← noRepeats]
      simp only [heard, after_of_reset fresh]
    refine ⟨same, ?_⟩
    rw [Alternates, same]
    exact List.isChain_destutter' _ _ _

/-- A `Q` held until it repeats in lower case and let go, with a `w` going down in between, and after a
reset the `Q` once more. -/
theorem tells_transitions_of_two_keys :
    let held : List Stroke := [.key 'Q' true, .key 'w' true, .key 'q' true, .key 'q' false]
    let again : List Stroke := [.key 'Q' true]
    let heard := transitions 0x4 ((after released []).told held)
    (after released (held ++ .reset :: again)).isDown 0x4 = true ∧
      (after released (held ++ .reset :: again)).isDown 0x5 = false ∧
      heard = [true, false] ∧ Alternates heard ∧
      transitions 0x4 ((after released (held ++ [.reset])).told again) = [true] := by
  intro held again heard
  obtain ⟨down, _, between, _⟩ := tells_transitions (held ++ .reset :: again)
  have first := between [] held (.reset :: again) rfl (.inl rfl) (by decide) 0x4
  have second := between (held ++ [.reset]) again [] rfl (.inr rfl) (by decide) 0x4
  exact ⟨(down 0x4).trans (by decide), (down 0x5).trans (by decide), List.tail_eq_of_cons_eq first.1,
    first.2, List.tail_eq_of_cons_eq second.1⟩

end Chip8Console.KeyTable
