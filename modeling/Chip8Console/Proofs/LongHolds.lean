import Chip8Console.Proofs.AdmittedHolds
import Chip8Console.Proofs.MadeUpReleases

/-!
Holds that end too late. Where releases are made up, each press and repeat of a key adds the hold to the
number of its refresh, and the sum must be a word. Whether it is depends on these two numbers alone, not on
what was typed before, and for the longest holds it is none from the first refresh on.
-/
namespace Chip8Console

private theorem dated_le {batches : List (List KeyEvent)} {entry : Nat × KeyEvent}
    (h : entry ∈ dated batches) :
    entry.1 ≤ batches.length := by
  induction batches using List.reverseRecOn with
  | nil => cases h
  | append_singleton earlier keys ih =>
    rw [dated_concat] at h
    rw [List.length_append, List.length_singleton]
    obtain h | h := List.mem_append.mp h
    · exact Nat.le_succ_of_le (ih h)
    · obtain ⟨e, -, rfl⟩ := List.mem_map.mp h
      exact le_rfl

private theorem exists_dated_at (quiet : Nat) (e : KeyEvent) :
    ∃ batches, batches.length = quiet + 1 ∧ (quiet + 1, e) ∈ dated batches := by
  refine ⟨List.replicate quiet [] ++ [[e]], by simp, ?_⟩
  rw [dated_concat, List.length_replicate]
  exact List.mem_append_right _ List.mem_cons_self

private theorem ReleaseLatch.press_eq (l : ReleaseLatch) (c : Char) (now : Nat) :
    l.press c now = if now + l.hold < Word.limit then .ok (!l.isHeld c, l.renew c (now + l.hold))
      else .error .addition := by
  unfold press Word.add
  split <;> rfl

namespace KeyEvent

private theorem holds_of_char {e : KeyEvent} {k : Char} (code : e.code = .char k)
    (pressed : e.motion ≠ .release) (stays : KeyTranslator.quits e = false) : e.holds k.toLower = true := by
  simpa [holds, code, pressed, KeyTranslator.quits, imp_iff_not_or] using stays

private theorem holds_of_release {e : KeyEvent} (released : e.motion = .release) (c : Char) :
    e.holds c = false := by
  unfold holds
  split <;> simp [released]

end KeyEvent

namespace KeyTranslator

/-- A press or repeat is so late that the end of its hold would be no word. Where releases are reported,
nothing is held. -/
structure Overruns (enhanced : Bool) (hold : Nat) (entry : Nat × KeyEvent) : Prop where
  fallback : enhanced = false
  holds : ∃ c, entry.2.holds c = true
  late : Word.limit ≤ entry.1 + hold

structure At (t : KeyTranslator) (enhanced : Bool) (hold refreshes : Nat) : Prop where
  enhanced : t.enhanced = enhanced
  hold : t.latch.hold = hold
  refreshes : t.refreshes = refreshes

/-- How the translation of some events ends: it comes to its end if none of them overruns, and meets the
fault of an addition if one does. -/
inductive Ends (enhanced : Bool) (hold : Nat) (entries : List (Nat × KeyEvent)) (refreshes : Nat)
    {α : Type} : Except ArithmeticFault (α × KeyTranslator) → Prop
  | done {result : α} {after : KeyTranslator} (kept : after.At enhanced hold refreshes)
      (spared : ∀ entry ∈ entries, ¬ Overruns enhanced hold entry) :
      Ends enhanced hold entries refreshes (.ok (result, after))
  | faulted {entry : Nat × KeyEvent} (mem : entry ∈ entries) (overruns : Overruns enhanced hold entry) :
      Ends enhanced hold entries refreshes (.error .addition)

section
variable {enhanced : Bool} {hold refreshes : Nat} {t : KeyTranslator}

private theorem Ends.bind {entries later : List (Nat × KeyEvent)} {last : Nat} {α β : Type}
    {first : Except ArithmeticFault (α × KeyTranslator)}
    {next : α × KeyTranslator → Except ArithmeticFault (β × KeyTranslator)}
    (h : Ends enhanced hold entries refreshes first)
    (hnext : ∀ result after, after.At enhanced hold refreshes →
      Ends enhanced hold later last (next (result, after))) :
    Ends enhanced hold (entries ++ later) last (first >>= next) := by
  cases h with
  | faulted mem overruns => exact .faulted (List.mem_append_left _ mem) overruns
  | @done result after kept spared =>
    have rest := hnext result after kept
    change Ends enhanced hold (entries ++ later) last (next (result, after))
    generalize next (result, after) = run at rest
    cases rest with
    | faulted mem overruns => exact .faulted (List.mem_append_right _ mem) overruns
    | done kept' spared' =>
      refine .done kept' fun entry mem => ?_
      obtain mem | mem := List.mem_append.mp mem
      · exact spared entry mem
      · exact spared' entry mem

private theorem Ends.map {entries : List (Nat × KeyEvent)} {α β : Type}
    {run : Except ArithmeticFault (α × KeyTranslator)} (h : Ends enhanced hold entries refreshes run)
    (f : α → KeyTranslator → β) (g : KeyTranslator → KeyTranslator)
    (keeps : ∀ after : KeyTranslator, after.At enhanced hold refreshes →
      (g after).At enhanced hold refreshes) :
    Ends enhanced hold entries refreshes (run.map fun (result, after) => (f result after, g after)) := by
  cases h with
  | done kept spared => exact .done (keeps _ kept) spared
  | faulted mem overruns => exact .faulted mem overruns

private theorem done_of_idle {e : KeyEvent} {events : List HostEvent} {after : KeyTranslator}
    (kept : after.At enhanced hold refreshes) (idle : ∀ c, e.holds c = false) :
    Ends enhanced hold [(refreshes, e)] refreshes (.ok (events, after)) := by
  refine .done kept fun entry mem overruns => ?_
  cases List.mem_singleton.mp mem
  obtain ⟨c, holds⟩ := overruns.holds
  cases (idle c).symm.trans holds

private theorem At.translateChar {e : KeyEvent} {k : Char} (h : t.At enhanced hold refreshes)
    (code : e.code = .char k) (stays : quits e = false) :
    Ends enhanced hold [(refreshes, e)] refreshes (t.translateChar k e.motion) := by
  obtain ⟨rfl, rfl, rfl⟩ := h
  have kept : t.At t.enhanced t.latch.hold t.refreshes := ⟨rfl, rfl, rfl⟩
  unfold KeyTranslator.translateChar
  dsimp only
  split
  · next reports =>
    exact .done kept fun entry _ overruns => absurd reports (Bool.eq_false_iff.mp overruns.fallback)
  · next fallback =>
    split
    · next pressed =>
      rw [ReleaseLatch.press_eq]
      split
      · next fits =>
        refine .done ⟨rfl, rfl, rfl⟩ fun entry mem overruns => ?_
        cases List.mem_singleton.mp mem
        exact absurd overruns.late (Nat.not_le.mpr fits)
      · next large =>
        exact .faulted List.mem_cons_self ⟨Bool.eq_false_iff.mpr fallback,
          ⟨_, KeyEvent.holds_of_char code (of_decide_eq_true pressed) stays⟩, Nat.not_lt.mp large⟩
    · next released =>
      have motion : e.motion = .release := by simpa using released
      exact done_of_idle ⟨rfl, rfl, rfl⟩ (KeyEvent.holds_of_release motion)

private theorem At.translate (h : t.At enhanced hold refreshes) (e : KeyEvent) :
    Ends enhanced hold [(refreshes, e)] refreshes (t.translate e) := by
  unfold KeyTranslator.translate
  split
  · next quits => exact done_of_idle h fun c => (KeyEvent.idle_of_quits quits c).1
  · next stays =>
    split
    · next k code => exact h.translateChar code (Bool.eq_false_iff.mpr stays)
    all_goals
      next code => exact done_of_idle h fun c => (KeyEvent.idle_of_code (by simp [code]) c).1

private theorem At.translateAll (h : t.At enhanced hold refreshes) (keys : List KeyEvent) :
    Ends enhanced hold (keys.map (Prod.mk refreshes)) refreshes (t.translateAll keys) := by
  induction keys generalizing t with
  | nil => exact .done h nofun
  | cons e rest ih =>
    exact (h.translate e).bind fun first mid hmid =>
      (ih hmid).map (fun others _ => first ++ others) id fun _ kept => kept

private theorem At.madeUpReleases (h : t.At enhanced hold refreshes) :
    t.madeUpReleases.2.At enhanced hold refreshes := by
  unfold KeyTranslator.madeUpReleases
  split
  · exact h
  · exact ⟨h.enhanced, h.hold, h.refreshes⟩

private theorem At.refresh (h : t.At enhanced hold refreshes) (keys : List KeyEvent) :
    Ends enhanced hold (keys.map (Prod.mk (refreshes + 1))) (refreshes + 1) (t.refresh keys) := by
  have begun : t.beginRefresh.At enhanced hold (refreshes + 1) :=
    ⟨h.enhanced, h.hold, congrArg (· + 1) h.refreshes⟩
  exact (begun.translateAll keys).map (fun reported t => Refreshed.mk reported t.madeUpReleases.1)
    (fun t => t.madeUpReleases.2) fun _ kept => kept.madeUpReleases

end

private theorem refreshAll_ends (enhanced : Bool) (hold : Nat) (batches : List (List KeyEvent)) :
    Ends enhanced (max hold 1) (dated batches) batches.length
      ((ofHold enhanced hold).refreshAll batches) := by
  induction batches using List.reverseRecOn with
  | nil => exact .done ⟨rfl, rfl, rfl⟩ nofun
  | append_singleton earlier keys ih =>
    rw [refreshAll_append, dated_concat, List.length_append, List.length_singleton]
    refine ih.bind fun told t ht => ?_
    -- the run that is left is one refresh
    have one := (ht.refresh keys).map (fun new _ => [new]) id fun _ kept => kept
    exact one.map (fun others _ => told ++ others) id fun _ kept => kept

section
variable {enhanced : Bool} {hold : Nat} {batches : List (List KeyEvent)}

private theorem refreshAll_of_overruns
    (late : ∃ entry ∈ dated batches, Overruns enhanced (max hold 1) entry) :
    (ofHold enhanced hold).refreshAll batches = .error .addition := by
  have ends := refreshAll_ends enhanced hold batches
  generalize (ofHold enhanced hold).refreshAll batches = run at ends
  cases ends with
  | done _ spared =>
    obtain ⟨entry, mem, overruns⟩ := late
    exact absurd overruns (spared entry mem)
  | faulted => rfl

private theorem refreshAll_of_spared
    (spared : ∀ entry ∈ dated batches, ¬ Overruns enhanced (max hold 1) entry) :
    ∃ told last, (ofHold enhanced hold).refreshAll batches = .ok (told, last) ∧
      last.refreshes = batches.length := by
  have ends := refreshAll_ends enhanced hold batches
  generalize (ofHold enhanced hold).refreshAll batches = run at ends
  cases ends with
  | done kept => exact ⟨_, _, rfl, kept.refreshes⟩
  | faulted mem overruns => exact absurd overruns (spared _ mem)

end

private theorem exists_overruns_iff (enhanced : Bool) (hold : Nat) :
    (∃ batches : List (List KeyEvent), batches.length < 2 ^ 63 ∧
      ∃ entry ∈ dated batches, Overruns enhanced hold entry) ↔ enhanced = false ∧ 2 ^ 63 < hold := by
  constructor
  · rintro ⟨batches, short, entry, mem, overruns⟩
    have past := dated_le mem
    have late := overruns.late
    unfold Word.limit at late
    exact ⟨overruns.fallback, by omega⟩
  · rintro ⟨fallback, long⟩
    obtain ⟨batches, length, mem⟩ := exists_dated_at (2 ^ 63 - 2) ⟨.char 'w', .press, false⟩
    refine ⟨batches, by omega, _, mem, fallback, ⟨'w', by decide⟩, ?_⟩
    unfold Word.limit
    dsimp only
    omega

/-- The holds that a command line can ask for are the words. Over every run of fewer than `2 ^ 63` refreshes,
whatever is typed in them, a translator with such a hold meets the fault of an addition exactly if releases
are not reported and a key is pressed or repeated so late that its hold would end at no word; any other run
comes to its end with all refreshes counted. No run of this length faults exactly if releases are reported or
the hold is `2 ^ 63` at most. -/
theorem admitted_hold_overflows_iff (hold : Nat) (enhanced : Bool) :
    (Configuration.AdmitsHold hold ↔ hold < Word.limit) ∧
    (∀ batches : List (List KeyEvent), batches.length < 2 ^ 63 →
      let run := (ofHold enhanced hold).refreshAll batches
      ((∃ entry ∈ dated batches, Overruns enhanced (max hold 1) entry) → run = .error .addition) ∧
      ((∀ entry ∈ dated batches, ¬ Overruns enhanced (max hold 1) entry) →
        ∃ told last, run = .ok (told, last) ∧ last.refreshes = batches.length)) ∧
    ((∀ batches : List (List KeyEvent), batches.length < 2 ^ 63 →
        ∃ result, (ofHold enhanced hold).refreshAll batches = .ok result) ↔
      enhanced = true ∨ hold ≤ 2 ^ 63) := by
  refine ⟨Configuration.admitsHold_iff hold,
    fun batches _ => ⟨refreshAll_of_overruns, refreshAll_of_spared⟩, ?_, ?_⟩
  · intro never
    by_contra fails
    obtain ⟨batches, short, late⟩ := (exists_overruns_iff enhanced (max hold 1)).mpr
      ⟨Bool.eq_false_iff.mpr fun reports => fails (.inl reports), by omega⟩
    obtain ⟨result, done⟩ := never batches short
    cases done.symm.trans (refreshAll_of_overruns late)
  · intro fine batches short
    have spared : ∀ entry ∈ dated batches, ¬ Overruns enhanced (max hold 1) entry := by
      intro entry mem overruns
      obtain ⟨fallback, long⟩ := (exists_overruns_iff enhanced (max hold 1)).mp
        ⟨batches, short, entry, mem, overruns⟩
      obtain reports | within := fine
      · cases reports.symm.trans fallback
      · omega
    obtain ⟨told, last, done, -⟩ := refreshAll_of_spared spared
    exact ⟨_, done⟩

/-- One refresh with one press is translated at the longest hold that no run is too long for, and faults at
the longest hold there is. -/
theorem admitted_hold_overflows_of_press :
    let batches : List (List KeyEvent) := [[⟨.char 'w', .press, false⟩]]
    batches.length < 2 ^ 63 ∧ Configuration.AdmitsHold (Word.limit - 1) ∧
    (∃ result, (ofHold false (2 ^ 63)).refreshAll batches = .ok result) ∧
    (ofHold false (Word.limit - 1)).refreshAll batches = .error .addition := by
  intro batches
  have short : batches.length < 2 ^ 63 := by decide
  obtain ⟨-, -, fine⟩ := admitted_hold_overflows_iff (2 ^ 63) false
  obtain ⟨admitted, outcome, -⟩ := admitted_hold_overflows_iff (Word.limit - 1) false
  refine ⟨short, admitted.mpr (by decide), fine.mpr (.inr le_rfl) batches short,
    (outcome batches short).1 ⟨(1, ⟨.char 'w', .press, false⟩), ?_, rfl, ⟨'w', by decide⟩, by decide⟩⟩
  decide

/-- A command line asks for the longest hold there is, and the first key typed meets a fault. -/
theorem longest_hold_overflows :
    ∃ c, Configuration.ofArguments ["--key-hold", "18446744073709551615"] = .ok c ∧
      (ofHold false c.keyHold).refreshAll [[⟨.char 'w', .press, false⟩]] = .error .addition :=
  ⟨{ keyHold := 18446744073709551615 }, by rfl, by rfl⟩

end KeyTranslator

end Chip8Console
