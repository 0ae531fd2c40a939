import Mathlib.Data.Char
import Mathlib.Data.List.Nodup
import Chip8Console.Input.KeyTranslator
import Chip8Console.Proofs.KeyAgreement

/-!
What a translator for terminals without releases holds and tells. Each key is held once and until one
refresh, and the host events tell exactly which keys come to be held and which are held no longer.
-/
namespace Chip8Console

namespace ReleaseLatch
variable {l : ReleaseLatch}

def Distinct (l : ReleaseLatch) : Prop := (l.held.map Prod.fst).Nodup

private theorem distinct_ofHold (hold : Nat) : (ofHold hold).Distinct := List.nodup_nil

private theorem Distinct.erase (h : l.Distinct) (c : Char) : (l.erase c).Distinct :=
  h.sublist (List.filter_sublist.map _)

private theorem Distinct.due?_eq_some_iff (h : l.Distinct) (c : Char) (due : Nat) :
    l.due? c = some due ↔ (c, due) ∈ l.held := by
  unfold Distinct at h
  unfold ReleaseLatch.due?
  generalize l.held = held at h
  induction held with
  | nil => simp
  | cons entry rest ih =>
    obtain ⟨k, ends⟩ := entry
    obtain ⟨fresh, once⟩ := List.nodup_cons.mp h
    by_cases same : c = k
    · subst same
      have absent : (c, due) ∉ rest := fun later => fresh (List.mem_map.mpr ⟨_, later, rfl⟩)
      simp [absent, eq_comm]
    · have other : (c == k) = false := by simpa using same
      simp [List.lookup_cons, other, ih once, same]

def renew (l : ReleaseLatch) (c : Char) (due : Nat) : ReleaseLatch :=
  { l with held := (c, due) :: (l.erase c).held }

private theorem due?_renew (l : ReleaseLatch) (c other : Char) (due : Nat) :
    (l.renew c due).due? other = if c = other then some due else l.due? other := by
  have looked : (l.renew c due).due? other =
      if other == c then some due else (l.erase c).due? other := by
    simp only [renew, ReleaseLatch.due?, List.lookup_cons]
    cases other == c <;> rfl
  rw [looked, due?_erase]
  by_cases same : c = other
  · simp [same]
  · simp [same, Ne.symm same]

private theorem isHeld_renew (l : ReleaseLatch) (c other : Char) (due : Nat) :
    (l.renew c due).isHeld other = (c == other || l.isHeld other) := by
  rw [isHeld, due?_renew]
  by_cases same : c = other <;> simp [same, isHeld]

private theorem isHeld_erase (l : ReleaseLatch) (c other : Char) :
    (l.erase c).isHeld other = (c != other && l.isHeld other) := by
  rw [isHeld, due?_erase]
  by_cases same : c = other <;> simp [same, isHeld]

private theorem Distinct.renew (h : l.Distinct) (c : Char) (due : Nat) : (l.renew c due).Distinct := by
  refine List.nodup_cons.mpr ⟨?_, h.erase c⟩
  simp [ReleaseLatch.erase]

private theorem press_eq_ok_iff {c : Char} {now : Nat} {fresh : Bool} {after : ReleaseLatch} :
    l.press c now = .ok (fresh, after) ↔
      now + l.hold < Word.limit ∧ fresh = !l.isHeld c ∧ after = l.renew c (now + l.hold) := by
  unfold press Word.add
  split
  · next fits => simp [Except.map, fits, renew, eq_comm]
  · next large => simp [Except.map, large]

private theorem Distinct.expire (h : l.Distinct) (now : Nat) : (l.expire now).2.Distinct := by
  simp only [ReleaseLatch.expire, List.partition_eq_filter_filter]
  exact h.sublist (List.filter_sublist.map _)

/-- A hold lasts while its end is still to come. -/
theorem Distinct.due?_expire (h : l.Distinct) (now : Nat) (c : Char) :
    (l.expire now).2.due? c = (l.due? c).filter fun due => decide (now < due) := by
  apply Option.ext
  intro due
  rw [(h.expire now).due?_eq_some_iff, Option.filter_eq_some_iff, h.due?_eq_some_iff]
  simp [ReleaseLatch.expire, List.partition_eq_filter_filter]

/-- A key is released exactly when its hold is over. -/
theorem Distinct.mem_expire (h : l.Distinct) (now : Nat) (c : Char) :
    c ∈ (l.expire now).1 ↔ ∃ due ≤ now, l.due? c = some due := by
  simp only [h.due?_eq_some_iff]
  simp [ReleaseLatch.expire, List.partition_eq_filter_filter, and_comm]

/-- Keys are released in ascending order, each once. -/
theorem Distinct.pairwise_expire (h : l.Distinct) (now : Nat) : (l.expire now).1.Pairwise (· < ·) := by
  simp only [ReleaseLatch.expire, List.partition_eq_filter_filter]
  have once := h.sublist ((List.filter_sublist (p := fun entry => decide (entry.2 ≤ now))).map Prod.fst)
  generalize (l.held.filter _).map Prod.fst = out at once
  have sorted : (out.mergeSort fun a b : Char => decide (a ≤ b)).Pairwise
      fun a b => decide (a ≤ b) = true := by
    apply List.pairwise_mergeSort
    · intro a b c hab hbc
      exact decide_eq_true (le_trans (of_decide_eq_true hab) (of_decide_eq_true hbc))
    · intro a b
      simpa using le_total a b
  exact List.Pairwise.imp₂ (fun a b hle hne => lt_of_le_of_ne (of_decide_eq_true hle) hne) sorted
    ((List.mergeSort_perm _ _).nodup_iff.mpr once)

end ReleaseLatch

namespace KeyEvent

/-- Whether the event says that `c` is down: a press or a repeat of it in either case, unless it is the
control and lower-case c that ends the console. -/
def holds (e : KeyEvent) (c : Char) : Bool :=
  match e.code with
  | .char k => k.toLower == c && e.motion != .release && !(k == 'c' && e.control)
  | _ => false

def frees (e : KeyEvent) (c : Char) : Bool :=
  match e.code with
  | .char k => k.toLower == c && e.motion == .release
  | _ => false

private theorem holds_of_holds {e : KeyEvent} {c : Char} (h : e.holds c = true) (other : Char) :
    (e.holds other = true ↔ c = other) ∧ e.frees other = false := by
  unfold holds at h
  split at h
  · next k code =>
    simp only [Bool.and_eq_true, beq_iff_eq, bne_iff_ne] at h
    obtain ⟨⟨rfl, pressed⟩, stays⟩ := h
    simp [holds, frees, code, pressed, stays]
  · cases h

/-- An event that lets go of a key lets go of no other and holds none. -/
theorem frees_of_frees {e : KeyEvent} {c : Char} (h : e.frees c = true) (other : Char) :
    (e.frees other = true ↔ c = other) ∧ e.holds other = false := by
  unfold frees at h
  split at h
  · next k code =>
    simp only [Bool.and_eq_true, beq_iff_eq] at h
    obtain ⟨rfl, released⟩ := h
    simp [holds, frees, code, released]
  · cases h

/-- What ends the console is about no key. -/
theorem idle_of_quits {e : KeyEvent} (quits : KeyTranslator.quits e = true) (c : Char) :
    e.holds c = false ∧ e.frees c = false := by
  unfold holds frees
  unfold KeyTranslator.quits at quits
  split <;> simp_all

/-- An event of a key without a character neither holds nor lets go. -/
theorem idle_of_code {e : KeyEvent} (other : ∀ k, e.code ≠ .char k) (c : Char) :
    e.holds c = false ∧ e.frees c = false := by
  unfold holds frees
  split
  · next k code => exact absurd code (other k)
  · exact ⟨rfl, rfl⟩

end KeyEvent

/-- What host events tell of one key in turn: that it went down or up. -/
def HostEvent.turns (events : List HostEvent) (c : Char) : List Bool :=
  events.filterMap fun
    | .key k pressed => if k = c then some pressed else none
    | .selectSlot _ | .quit => none

namespace HostEvent

@[simp] theorem turns_nil (c : Char) : turns [] c = [] := rfl

/-- What is told of a key is told event by event. -/
@[simp] theorem turns_append (events later : List HostEvent) (c : Char) :
    turns (events ++ later) c = turns events c ++ turns later c :=
  List.filterMap_append

@[simp] theorem turns_key (k c : Char) (pressed : Bool) :
    turns [.key k pressed] c = if k = c then [pressed] else [] := by
  by_cases same : k = c <;> simp [turns, same]

private theorem turns_releases {quiet : List Char} (once : quiet.Nodup) (c : Char) :
    turns (quiet.map fun k => .key k false) c = if c ∈ quiet then [false] else [] := by
  induction quiet with
  | nil => rfl
  | cons k rest ih =>
    obtain ⟨fresh, once⟩ := List.nodup_cons.mp once
    rw [List.map_cons, ← List.singleton_append, turns_append, turns_key, ih once]
    by_cases same : k = c
    · subst same
      simp [fresh]
    · simp [same, Ne.symm same]

end HostEvent

open HostEvent

/-- Between two latches the events tell exactly which keys have come to be held and which are no longer. -/
def ReleaseLatch.Tells (before after : ReleaseLatch) (events : List HostEvent) : Prop :=
  ∀ c, turns events c = if before.isHeld c = after.isHeld c then [] else [after.isHeld c]

namespace ReleaseLatch
variable {l after : ReleaseLatch} {stream events : List HostEvent}

/-- The releases made up for the keys whose hold is over tell exactly of these. -/
theorem Distinct.tells_expire (h : l.Distinct) (now : Nat) :
    l.Tells (l.expire now).2 ((l.expire now).1.map fun k => .key k false) := by
  intro c
  rw [turns_releases ((h.pairwise_expire now).imp ne_of_lt), isHeld, isHeld, h.due?_expire]
  simp only [h.mem_expire]
  cases l.due? c with
  | none => simp
  | some due =>
    by_cases ran : due ≤ now
    · simp [ran, not_lt.mpr ran, Option.filter]
    · simp [ran, Option.filter]

/-- A stream of host events has told of each key in turn that it went down and up, and what it told of
it last is whether the latch holds it. -/
structure InStep (l : ReleaseLatch) (stream : List HostEvent) : Prop where
  distinct : l.Distinct
  alternates : ∀ c, Alternates (turns stream c)
  told : ∀ c, downAfter (turns stream c) = l.isHeld c

/-- A latch that holds nothing is in step with a stream in which nothing was told. -/
theorem inStep_ofHold (hold : Nat) : (ofHold hold).InStep [] where
  distinct := distinct_ofHold hold
  alternates _ := .singleton _
  told _ := rfl

private theorem InStep.extend (h : l.InStep stream) (distinct : after.Distinct)
    (tells : l.Tells after events) :
    after.InStep (stream ++ events) where
  distinct := distinct
  alternates c := by
    rw [turns_append, tells c]
    split
    · rw [List.append_nil]
      exact h.alternates c
    · next changed =>
      rw [Bool.eq_not.mpr (Ne.symm changed), ← h.told c]
      exact (h.alternates c).concat
  told c := by
    rw [turns_append, tells c]
    split
    · next same => rw [List.append_nil, h.told c, same]
    · rw [downAfter_concat]

/-- A stream that goes on with the releases made up stays in step with the latch. -/
theorem InStep.expire (h : l.InStep stream) (now : Nat) :
    (l.expire now).2.InStep (stream ++ (l.expire now).1.map fun k => .key k false) :=
  h.extend (h.distinct.expire now) (h.distinct.tells_expire now)

end ReleaseLatch

namespace KeyTranslator
variable {t after : KeyTranslator} {e : KeyEvent} {events : List HostEvent}

/-- What a key event can do to a translator for terminals without releases. -/
inductive Translation (t : KeyTranslator) (e : KeyEvent) : List HostEvent → KeyTranslator → Prop
  | held (c : Char) (holds : e.holds c = true) : Translation t e
      (if t.latch.isHeld c then [] else [.key c true])
      { t with latch := t.latch.renew c (t.refreshes + t.latch.hold) }
  | freed (c : Char) (frees : e.frees c = true) : Translation t e
      (if t.latch.isHeld c then [.key c false] else []) { t with latch := t.latch.erase c }
  | kept (events : List HostEvent) (idle : ∀ c, e.holds c = false ∧ e.frees c = false)
      (silent : ∀ c, turns events c = []) : Translation t e events t

private theorem translation_of_translateChar {k : Char} (fallback : t.enhanced = false)
    (code : e.code = .char k) (stays : quits e = false)
    (h : t.translateChar k e.motion = .ok (events, after)) : Translation t e events after := by
  unfold translateChar at h
  rw [if_neg (Bool.eq_false_iff.mp fallback)] at h
  by_cases pressed : e.motion = .release
  · have frees : e.frees k.toLower = true := by simp [KeyEvent.frees, code, pressed]
    rw [if_neg (by simp [pressed])] at h
    cases h
    exact .freed k.toLower frees
  · have holds : e.holds k.toLower = true := by
      simpa [KeyEvent.holds, code, pressed, quits, imp_iff_not_or] using stays
    rw [if_pos (by simp [pressed])] at h
    cases hpress : t.latch.press k.toLower t.refreshes with
    | error fault =>
      rw [hpress] at h
      cases h
    | ok result =>
      obtain ⟨fresh, latch⟩ := result
      obtain ⟨-, rfl, rfl⟩ := ReleaseLatch.press_eq_ok_iff.mp hpress
      rw [hpress] at h
      have told : (if (!t.latch.isHeld k.toLower) = true then [HostEvent.key k.toLower true] else []) =
          if t.latch.isHeld k.toLower then [] else [.key k.toLower true] := by
        cases t.latch.isHeld k.toLower <;> rfl
      cases h
      rw [told]
      exact .held k.toLower holds

/-- Where releases are made up a key event does one of the things that `Translation` lists. -/
theorem translation_of_translate (fallback : t.enhanced = false)
    (h : t.translate e = .ok (events, after)) : Translation t e events after := by
  unfold translate at h
  split at h
  · next quits =>
    cases h
    exact .kept _ (KeyEvent.idle_of_quits quits) fun _ => rfl
  · next stays =>
    split at h
    · next k code =>
      exact translation_of_translateChar fallback code (Bool.eq_false_iff.mpr stays) h
    · next n code =>
      cases h
      refine .kept _ (KeyEvent.idle_of_code (by simp [code])) fun c => ?_
      split <;> rfl
    all_goals
      next code =>
        cases h
        exact .kept _ (KeyEvent.idle_of_code (by simp [code])) fun _ => rfl

/-- At a refresh that leaves the ends of all holds words, every key event is translated. -/
theorem translate_isOk (t : KeyTranslator) (e : KeyEvent)
    (fits : t.refreshes + t.latch.hold < Word.limit) : ∃ result, t.translate e = .ok result := by
  unfold translate
  split
  · exact ⟨_, rfl⟩
  · split
    · next k _ =>
      unfold translateChar
      dsimp only
      split
      · exact ⟨_, rfl⟩
      · split
        · rw [ReleaseLatch.press_eq_ok_iff.mpr ⟨fits, rfl, rfl⟩]
          exact ⟨_, rfl⟩
        · exact ⟨_, rfl⟩
    all_goals exact ⟨_, rfl⟩

namespace Translation

/-- Each hold ends as before, but for that of a key that the event holds or lets go. -/
theorem due? (h : Translation t e events after) (c : Char) :
    after.latch.due? c = if e.holds c then some (t.refreshes + t.latch.hold)
      else if e.frees c then none else t.latch.due? c := by
  cases h with
  | held k holds =>
    obtain ⟨hholds, hfrees⟩ := KeyEvent.holds_of_holds holds c
    rw [ReleaseLatch.due?_renew, hfrees]
    simp only [hholds, Bool.false_eq_true, if_false]
  | freed k frees =>
    obtain ⟨hfrees, hholds⟩ := KeyEvent.frees_of_frees frees c
    rw [ReleaseLatch.due?_erase, hholds]
    simp only [hfrees, Bool.false_eq_true, if_false]
  | kept _ idle _ =>
    rw [(idle c).1, (idle c).2]
    rfl

/-- A key event changes nothing but which keys are held. -/
theorem fixed (h : Translation t e events after) :
    after.enhanced = t.enhanced ∧ after.latch.hold = t.latch.hold ∧ after.refreshes = t.refreshes := by
  cases h <;> exact ⟨rfl, rfl, rfl⟩

private theorem distinct (h : Translation t e events after) (before : t.latch.Distinct) :
    after.latch.Distinct := by
  cases h with
  | held k _ => exact before.renew k _
  | freed k _ => exact before.erase k
  | kept => exact before

/-- What a key event stands for tells exactly which key has come to be held or is let go. -/
theorem tells (h : Translation t e events after) : t.latch.Tells after.latch events := by
  intro c
  cases h with
  | held k _ =>
    change _ = if _ = (t.latch.renew k _).isHeld c then [] else [(t.latch.renew k _).isHeld c]
    rw [ReleaseLatch.isHeld_renew]
    by_cases same : k = c
    · subst same
      cases held : t.latch.isHeld k <;> simp
    · split <;> simp [same]
  | freed k _ =>
    change _ = if _ = (t.latch.erase k).isHeld c then [] else [(t.latch.erase k).isHeld c]
    rw [ReleaseLatch.isHeld_erase]
    by_cases same : k = c
    · subst same
      cases held : t.latch.isHeld k <;> simp
    · split <;> simp [same]
  | kept _ _ silent => rw [if_pos rfl, silent]

/-- A stream that goes on with what a key event stands for stays in step with the latch. -/
theorem inStep {stream : List HostEvent} (h : Translation t e events after)
    (before : t.latch.InStep stream) : after.latch.InStep (stream ++ events) :=
  before.extend (h.distinct before.distinct) h.tells

end Translation

/-- Where releases are made up they are those of the keys whose hold is over. -/
theorem madeUpReleases_fallback (fallback : t.enhanced = false) :
    t.madeUpReleases = ((t.latch.expire t.refreshes).1.map fun c => .key c false,
      { t with latch := (t.latch.expire t.refreshes).2 }) := by
  rw [madeUpReleases, if_neg (Bool.eq_false_iff.mp fallback)]

end KeyTranslator

end Chip8Console
