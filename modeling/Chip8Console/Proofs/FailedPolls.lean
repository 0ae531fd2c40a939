import Mathlib.Data.List.Basic
import Mathlib.Data.List.Flatten
import Chip8Console.Proofs.TerminalLife

/-!
What reading from a terminal that reports releases delivers, and what it loses. Each poll that does not fail
answers with all that it read, in order. A poll that fails answers with the reason alone, and what it had
read by then is in no answer, since it is gone from the terminal and kept nowhere.
-/
namespace Chip8Console

/-- The host events that a key event stands for where releases are reported. A repeat tells nothing new. -/
def KeyEvent.meaning (e : KeyEvent) : List HostEvent :=
  if KeyTranslator.quits e then [.quit]
  else
    match e.code, e.motion with
    | .char c, .press => [.key c.toLower true]
    | .char c, .release => [.key c.toLower false]
    | .function n, .press => if 1 ≤ n ∧ n ≤ 12 then [.selectSlot (n - 1)] else []
    | _, _ => []

/-- The host events that an event of a terminal stands for where releases are reported. -/
def TerminalEvent.meaning : TerminalEvent → List HostEvent
  | .key e => e.meaning
  | .other => []

private theorem TerminalEvent.flatMap_keys (events : List TerminalEvent) :
    (keys events).flatMap KeyEvent.meaning = events.flatMap meaning := by
  induction events with
  | nil => rfl
  | cons event rest ih =>
    cases event with
    | key e => exact congrArg (e.meaning ++ ·) ih
    | other => exact ih

private theorem flatMap_eq_flatMap_iff {α β : Type} {parts : List α} {f g : α → List β}
    (within : ∀ p ∈ parts, (f p).Sublist (g p)) :
    parts.flatMap f = parts.flatMap g ↔ ∀ p ∈ parts, f p = g p := by
  refine ⟨fun same => ?_, List.flatMap_congr⟩
  induction parts with
  | nil => exact nofun
  | cons p rest ih =>
    obtain ⟨first, others⟩ := List.forall_mem_cons.mp within
    have total := congrArg List.length same
    have short := first.length_le
    have short' := (List.Sublist.flatMap_right rest others).length_le
    simp only [List.flatMap_cons, List.length_append] at total
    obtain ⟨head, tail⟩ := List.append_inj same (by omega)
    exact List.forall_mem_cons.mpr ⟨head, ih others tail⟩

namespace KeyTranslator
variable {t : KeyTranslator}

private theorem translate_of_reports (reports : t.enhanced = true) (e : KeyEvent) :
    t.translate e = .ok (e.meaning, t) := by
  unfold translate KeyEvent.meaning
  split
  · rfl
  · cases code : e.code with
    | char c => cases motion : e.motion <;> simp [translateChar, reports]
    | function n => cases motion : e.motion <;> simp
    | escape | other => rfl

private theorem translateAll_of_reports (reports : t.enhanced = true) (given : List KeyEvent) :
    t.translateAll given = .ok (given.flatMap KeyEvent.meaning, t) := by
  induction given with
  | nil => rfl
  | cons e rest ih =>
    rw [translateAll, translate_of_reports reports]
    exact ArithmeticFault.bind_eq_ok_iff.mpr ⟨_, rfl, ArithmeticFault.bind_eq_ok_iff.mpr ⟨_, ih, rfl⟩⟩

end KeyTranslator

namespace TermInput

def Poll.meaning (p : Poll) : List HostEvent := p.given.flatMap TerminalEvent.meaning

/-- The answer to a poll where releases are reported: all that it read, or why it failed. -/
def Poll.answer (p : Poll) : Except Cause (List HostEvent) :=
  match p.failure with
  | none => .ok p.meaning
  | some cause => .error cause

def pollEach (input : TermInput) :
    List Poll → Except ArithmeticFault (List (Except Cause (List HostEvent)) × TermInput)
  | [] => .ok ([], input)
  | p :: rest => do
    let (first, input) ← input.poll p.given p.failure
    let (others, input) ← input.pollEach rest
    return (first :: others, input)

def delivered : Except Cause (List HostEvent) → List HostEvent
  | .ok events => events
  | .error _ => []

variable {input : TermInput}

private theorem poll_of_reports (reports : input.translator.enhanced = true) (p : Poll) :
    input.poll p.given p.failure = .ok (p.answer, ⟨input.translator.beginRefresh⟩) := by
  have begun : input.translator.beginRefresh.enhanced = true := reports
  have none_due : input.translator.beginRefresh.madeUpReleases = ([], input.translator.beginRefresh) :=
    if_pos begun
  refine ArithmeticFault.bind_eq_ok_iff.mpr ⟨_, KeyTranslator.translateAll_of_reports begun _, ?_⟩
  rw [TerminalEvent.flatMap_keys]
  unfold Poll.answer Poll.meaning
  cases p.failure with
  | some cause => rfl
  | none =>
    simp only [none_due, List.append_nil]
    rfl

private theorem pollEach_of_reports (reports : input.translator.enhanced = true) (polls : List Poll) :
    input.pollEach polls = .ok (polls.map Poll.answer,
      ⟨{ input.translator with refreshes := input.translator.refreshes + polls.length }⟩) := by
  induction polls generalizing input with
  | nil => rfl
  | cons p rest ih =>
    have begun : input.translator.beginRefresh.enhanced = true := reports
    refine ArithmeticFault.bind_eq_ok_iff.mpr ⟨_, poll_of_reports reports p,
      ArithmeticFault.bind_eq_ok_iff.mpr ⟨_, ih begun, ?_⟩⟩
    rw [List.length_cons, Nat.add_comm rest.length, ← Nat.add_assoc]
    rfl

/-- Over all polls in a row of an input whose terminal reports releases, however the events are spread over
them and wherever reading fails: each poll that does not fail answers with what it read, in order, and the
answers together are the translation of all that was read exactly if no poll that fails had read an event
that stands for anything. -/
theorem polls_deliver_all_iff (reports : input.translator.enhanced = true) (polls : List Poll) :
    ∃ answers after, input.pollEach polls = .ok (answers, after) ∧ answers = polls.map Poll.answer ∧
      (answers.flatMap delivered = (polls.flatMap Poll.given).flatMap TerminalEvent.meaning ↔
        ∀ p ∈ polls, p.failure ≠ none → p.meaning = []) := by
  refine ⟨_, _, pollEach_of_reports reports polls, rfl, ?_⟩
  have split : delivered ∘ Poll.answer = fun p => if p.failure = none then p.meaning else [] := by
    funext p
    unfold Function.comp Poll.answer
    cases p.failure <;> rfl
  have within : ∀ p ∈ polls, ((delivered ∘ Poll.answer) p).Sublist p.meaning := by
    intro p _
    rw [split]
    dsimp only
    split
    · exact List.Sublist.refl _
    · exact List.nil_sublist _
  rw [List.flatMap_map, List.flatMap_assoc]
  refine (flatMap_eq_flatMap_iff within).trans (forall₂_congr fun p _ => ?_)
  rw [split]
  dsimp only
  by_cases fine : p.failure = none
  · rw [if_pos fine]
    exact iff_of_true rfl fun failed => absurd fine failed
  · rw [if_neg fine]
    exact ⟨fun lost _ => lost.symm, fun lost => (lost fine).symm⟩

/-- A poll that fails before a key was read loses nothing. -/
theorem polls_deliver_all_of_resize :
    let input : TermInput := ⟨.ofHold true 6⟩
    let polls : List Poll := [⟨[.key ⟨.char 'W', .press, false⟩, .other], none⟩,
      ⟨[.other], some (.other "poll refused")⟩, ⟨[.key ⟨.char 'w', .release, false⟩], none⟩]
    input.translator.enhanced = true ∧
    ∃ answers after, input.pollEach polls = .ok (answers, after) ∧
      answers = [.ok [.key 'w' true], .error (.other "poll refused"), .ok [.key 'w' false]] ∧
      answers.flatMap delivered = (polls.flatMap Poll.given).flatMap TerminalEvent.meaning := by
  intro input polls
  have reports : input.translator.enhanced = true := rfl
  obtain ⟨answers, after, run, answered, delivers⟩ := polls_deliver_all_iff reports polls
  refine ⟨reports, answers, after, run, answered.trans (by decide), delivers.mpr ?_⟩
  decide

/-- A press is read, and then asking for more fails. It is in no answer, and the next poll finds nothing. -/
theorem failed_poll_drops_press :
    let input : TermInput := ⟨.ofHold true 6⟩
    let polls : List Poll := [⟨[.key ⟨.char 'w', .press, false⟩], some (.other "poll refused")⟩, ⟨[], none⟩]
    ∃ answers after, input.pollEach polls = .ok (answers, after) ∧ answers.flatMap delivered = [] ∧
      (polls.flatMap Poll.given).flatMap TerminalEvent.meaning = [.key 'w' true] :=
  ⟨[.error (.other "poll refused"), .ok []], ⟨{ KeyTranslator.ofHold true 6 with refreshes := 2 }⟩,
    rfl, rfl, rfl⟩

end TermInput

end Chip8Console
