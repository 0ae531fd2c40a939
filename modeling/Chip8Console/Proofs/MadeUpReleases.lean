import Mathlib.Data.Nat.SuccPred
import Mathlib.Order.SuccPred.Archimedean
import Chip8Console.Input.TermInput
import Chip8Console.Proofs.GrowingLog
import Chip8Console.Proofs.HeldKeys

/-!
Releases made up for a terminal that reports none. A key counts as down from its press on, until a
release of it is reported or it has been quiet for the hold, whichever comes first; the host events tell
of it down and up in turn, and a release that is made up comes at the refresh at which the hold is over.
-/
namespace Chip8Console

open HostEvent (turns)

/-- The refreshes at which `c` was pressed or repeated and after which no release of it was reported. -/
def heldSince (history : List (Nat × KeyEvent)) (c : Char) : Set Nat :=
  {refresh | ∃ before e after, history = before ++ (refresh, e) :: after ∧ e.holds c = true ∧
    ∀ later ∈ after, later.2.frees c = false}

section
variable {history : List (Nat × KeyEvent)} {now refresh : Nat} {e : KeyEvent} {c : Char}

private theorem mem_heldSince_concat : refresh ∈ heldSince (history ++ [(now, e)]) c ↔
    (e.holds c = true ∧ refresh = now) ∨ (e.frees c = false ∧ refresh ∈ heldSince history c) := by
  constructor
  · rintro ⟨before, e', after, split, holds, kept⟩
    obtain ⟨after, rfl, earlier⟩ | ⟨rfl, -, same⟩ := append_eq_append_singleton split
    · exact .inr ⟨kept (now, e) (by simp), before, e', after, earlier, holds,
        fun later h => kept later (List.mem_append_left _ h)⟩
    · cases same
      exact .inl ⟨holds, rfl⟩
  · rintro (⟨holds, rfl⟩ | ⟨kept, before, e', after, rfl, holds, still⟩)
    · exact ⟨history, e, [], rfl, holds, nofun⟩
    · refine ⟨before, e', after ++ [(now, e)], by simp, holds, fun later h => ?_⟩
      obtain h | h := List.mem_append.mp h
      · exact still later h
      · rw [List.mem_singleton.mp h]
        exact kept

private theorem mem_of_mem_heldSince (h : refresh ∈ heldSince history c) : ∃ e, (refresh, e) ∈ history := by
  obtain ⟨before, e, after, rfl, -⟩ := h
  exact ⟨e, by simp⟩

private theorem isGreatest_heldSince_of_holds (past : ∀ entry ∈ history, entry.1 ≤ now)
    (holds : e.holds c = true) :
    IsGreatest (heldSince (history ++ [(now, e)]) c) refresh ↔ refresh = now := by
  have greatest : IsGreatest (heldSince (history ++ [(now, e)]) c) now := by
    refine ⟨mem_heldSince_concat.mpr (.inl ⟨holds, rfl⟩), fun earlier h => ?_⟩
    obtain ⟨-, rfl⟩ | ⟨-, h⟩ := mem_heldSince_concat.mp h
    · exact le_rfl
    · obtain ⟨e', h⟩ := mem_of_mem_heldSince h
      exact past _ h
  exact ⟨fun h => h.unique greatest, fun h => h ▸ greatest⟩

private theorem heldSince_of_frees (frees : e.frees c = true) :
    heldSince (history ++ [(now, e)]) c = ∅ := by
  ext refresh
  simp [mem_heldSince_concat, frees, (KeyEvent.frees_of_frees frees c).2]

private theorem heldSince_of_idle (holds : e.holds c = false) (frees : e.frees c = false) :
    heldSince (history ++ [(now, e)]) c = heldSince history c := by
  ext refresh
  simp [mem_heldSince_concat, holds, frees]

private theorem exists_heldSince_iff (past : ∀ entry ∈ history, entry.1 ≤ now) (hold : Nat) :
    (∃ p ∈ heldSince history c, refresh < p + hold) ↔
      ∃ p, IsGreatest (heldSince history c) p ∧ refresh < p + hold := by
  constructor
  · rintro ⟨p, held, within⟩
    have bounded : BddAbove (heldSince history c) := by
      refine ⟨now, fun earlier h => ?_⟩
      obtain ⟨e, h⟩ := mem_of_mem_heldSince h
      exact past _ h
    obtain ⟨last, greatest⟩ := bounded.exists_isGreatest_of_nonempty ⟨p, held⟩
    exact ⟨last, greatest, within.trans_le (Nat.add_le_add_right (greatest.2 held) hold)⟩
  · rintro ⟨p, greatest, within⟩
    exact ⟨p, greatest.1, within⟩

end

/-- The key events of some refreshes, each with the number of its refresh, counted from one. -/
def dated (batches : List (List KeyEvent)) : List (Nat × KeyEvent) :=
  (batches.zipIdx 1).flatMap fun (keys, refresh) => keys.map (Prod.mk refresh)

/-- The events of one more refresh bear the number of that refresh. -/
theorem dated_concat (batches : List (List KeyEvent)) (keys : List KeyEvent) :
    dated (batches ++ [keys]) = dated batches ++ keys.map (Prod.mk (batches.length + 1)) := by
  simp [dated, List.zipIdx_append, Nat.add_comm]

/-- What one refresh told: what the key events stood for, and the releases that were made up. -/
structure Refreshed where
  reported : List HostEvent
  madeUp : List HostEvent
deriving DecidableEq, Repr

/-- The releases that are made up come after all else. -/
def Refreshed.events (r : Refreshed) : List HostEvent := r.reported ++ r.madeUp

/-- The releases made up at this refresh are those of the keys that were last pressed a whole hold ago,
each once and in ascending order. -/
def Refreshed.Punctual (told : Refreshed) (history : List (Nat × KeyEvent)) (hold refresh : Nat) :
    Prop :=
  ∃ quiet : List Char, told.madeUp = (quiet.map fun c => .key c false) ∧ quiet.Pairwise (· < ·) ∧
    ∀ c, c ∈ quiet ↔ ∃ p, IsGreatest (heldSince history c) p ∧ p + hold = refresh

namespace KeyTranslator

def refresh (t : KeyTranslator) (keys : List KeyEvent) :
    Except ArithmeticFault (Refreshed × KeyTranslator) :=
  (t.beginRefresh.translateAll keys).map fun (reported, t) =>
    (⟨reported, t.madeUpReleases.1⟩, t.madeUpReleases.2)

/-- Reading from a terminal that does not fail is a refresh of the translator. -/
theorem poll_eq_refresh (t : KeyTranslator) (given : List TerminalEvent) :
    TermInput.poll ⟨t⟩ given none = (t.refresh (TerminalEvent.keys given)).map
      fun (told, t) => (.ok told.events, ⟨t⟩) := by
  unfold TermInput.poll refresh
  cases t.beginRefresh.translateAll (TerminalEvent.keys given) <;> rfl

def refreshAll (t : KeyTranslator) :
    List (List KeyEvent) → Except ArithmeticFault (List Refreshed × KeyTranslator)
  | [] => .ok ([], t)
  | keys :: rest => do
    let (first, t) ← t.refresh keys
    let (others, t) ← t.refreshAll rest
    return (first :: others, t)

variable {t after : KeyTranslator} {batches : List (List KeyEvent)} {told : List Refreshed}

/-- Refreshes may be taken in two parts. -/
theorem refreshAll_append (t : KeyTranslator) (batches later : List (List KeyEvent)) :
    t.refreshAll (batches ++ later) = do
      let (told, t) ← t.refreshAll batches
      let (others, t) ← t.refreshAll later
      return (told ++ others, t) := by
  induction batches generalizing t with
  | nil => exact (bind_pure (t.refreshAll later)).symm
  | cons keys rest ih =>
    simp only [List.cons_append, refreshAll, ih, bind_assoc, pure_bind]

private theorem refreshAll_take (h : t.refreshAll batches = .ok (told, after)) (n : Nat) :
    ∃ mid, t.refreshAll (batches.take n) = .ok (told.take n, mid) := by
  induction batches generalizing t told n with
  | nil =>
    cases h
    exact ⟨_, by rw [List.take_nil, List.take_nil]; rfl⟩
  | cons keys rest ih =>
    obtain ⟨⟨first, t'⟩, hfirst, hrest⟩ := ArithmeticFault.bind_eq_ok_iff.mp h
    obtain ⟨⟨others, t''⟩, hothers, hafter⟩ := ArithmeticFault.bind_eq_ok_iff.mp hrest
    cases hafter
    cases n with
    | zero => exact ⟨t, rfl⟩
    | succ n =>
      obtain ⟨mid, hmid⟩ := ih hothers n
      exact ⟨mid, ArithmeticFault.bind_eq_ok_iff.mpr ⟨_, hfirst,
        ArithmeticFault.bind_eq_ok_iff.mpr ⟨_, hmid, rfl⟩⟩⟩

/-- What a translator for terminals without releases keeps to: it holds the keys whose hold is not over
before refresh `now`, and the host events told are those of the keys that it holds. -/
structure Tracks (t : KeyTranslator) (history : List (Nat × KeyEvent)) (stream : List HostEvent)
    (now : Nat) : Prop where
  fallback : t.enhanced = false
  past : ∀ entry ∈ history, entry.1 ≤ t.refreshes
  inStep : t.latch.InStep stream
  due : ∀ c due, t.latch.due? c = some due ↔
    ∃ p, IsGreatest (heldSince history c) p ∧ p + t.latch.hold = due ∧ now ≤ due

variable {history : List (Nat × KeyEvent)} {stream : List HostEvent}

private theorem tracks_ofHold (hold : Nat) : (ofHold false hold).Tracks [] [] 1 where
  fallback := rfl
  past := nofun
  inStep := ReleaseLatch.inStep_ofHold hold
  due c due := by
    have none (p : Nat) : ¬ IsGreatest (heldSince [] c) p := by
      rintro ⟨⟨before, e, after, split, -⟩, -⟩
      cases before <;> cases split
    simp [none, ofHold, ReleaseLatch.ofHold, ReleaseLatch.due?]

namespace Tracks

private theorem beginRefresh (h : t.Tracks history stream (t.refreshes + 1)) :
    t.beginRefresh.Tracks history stream t.beginRefresh.refreshes where
  fallback := h.fallback
  past entry hentry := Nat.le_succ_of_le (h.past entry hentry)
  inStep := h.inStep
  due := h.due

private theorem translation {e : KeyEvent} {events : List HostEvent}
    (h : t.Tracks history stream t.refreshes) (translated : Translation t e events after) :
    after.Tracks (history ++ [(t.refreshes, e)]) (stream ++ events) after.refreshes := by
  obtain ⟨same, hold, refreshes⟩ := translated.fixed
  constructor
  case fallback => exact same.trans h.fallback
  case past =>
    rw [refreshes]
    simpa [or_imp, forall_and] using h.past
  case inStep => exact translated.inStep h.inStep
  case due =>
    intro c due
    rw [translated.due?, hold, refreshes]
    cases holds : e.holds c with
    | true =>
      simp only [if_true, isGreatest_heldSince_of_holds h.past holds, exists_eq_left, Option.some.injEq]
      omega
    | false =>
      cases frees : e.frees c with
      | true => simp [heldSince_of_frees frees, IsGreatest]
      | false => simp [heldSince_of_idle holds frees, h.due c due]

private theorem translateAll {keys : List KeyEvent} (h : t.Tracks history stream t.refreshes)
    (fits : t.refreshes + t.latch.hold < Word.limit) :
    ∃ events after, t.translateAll keys = .ok (events, after) ∧ after.refreshes = t.refreshes ∧
      after.latch.hold = t.latch.hold ∧
      after.Tracks (history ++ keys.map (Prod.mk t.refreshes)) (stream ++ events) after.refreshes := by
  induction keys generalizing t history stream with
  | nil => exact ⟨[], t, rfl, rfl, rfl, by simpa using h⟩
  | cons e rest ih =>
    obtain ⟨⟨first, t'⟩, htranslate⟩ := t.translate_isOk e fits
    have translated := translation_of_translate h.fallback htranslate
    obtain ⟨-, hold, refreshes⟩ := translated.fixed
    obtain ⟨others, after, hrest, refreshes', hold', tracks⟩ :=
      ih (h.translation translated) (by rw [hold, refreshes]; exact fits)
    refine ⟨first ++ others, after, ?_, refreshes'.trans refreshes, hold'.trans hold, ?_⟩
    · exact ArithmeticFault.bind_eq_ok_iff.mpr ⟨_, htranslate,
        ArithmeticFault.bind_eq_ok_iff.mpr ⟨_, hrest, rfl⟩⟩
    · rw [refreshes] at tracks
      simpa using tracks

private theorem madeUpReleases (h : t.Tracks history stream t.refreshes) :
    t.madeUpReleases.2.Tracks history (stream ++ t.madeUpReleases.1) (t.refreshes + 1) := by
  rw [madeUpReleases_fallback h.fallback]
  constructor
  case fallback => exact h.fallback
  case past => exact h.past
  case inStep => exact h.inStep.expire t.refreshes
  case due =>
    intro c due
    simp only [h.inStep.distinct.due?_expire, Option.filter_eq_some_iff, h.due c, decide_eq_true_eq]
    constructor
    · rintro ⟨⟨p, greatest, hdue, -⟩, later⟩
      exact ⟨p, greatest, hdue, later⟩
    · rintro ⟨p, greatest, hdue, later⟩
      exact ⟨⟨p, greatest, hdue, Nat.le_of_succ_le later⟩, later⟩

private theorem punctual (h : t.Tracks history stream t.refreshes) (reported : List HostEvent) :
    (⟨reported, t.madeUpReleases.1⟩ : Refreshed).Punctual history t.latch.hold t.refreshes := by
  rw [madeUpReleases_fallback h.fallback]
  refine ⟨_, rfl, h.inStep.distinct.pairwise_expire t.refreshes, fun c => ?_⟩
  simp only [h.inStep.distinct.mem_expire, h.due c]
  constructor
  · rintro ⟨due, ended, p, greatest, rfl, held⟩
    exact ⟨p, greatest, Nat.le_antisymm ended held⟩
  · rintro ⟨p, greatest, ended⟩
    exact ⟨t.refreshes, le_rfl, p, greatest, ended, le_rfl⟩

private theorem refresh (h : t.Tracks history stream (t.refreshes + 1)) (keys : List KeyEvent)
    (fits : t.refreshes + 1 + t.latch.hold < Word.limit) :
    let later := history ++ keys.map (Prod.mk (t.refreshes + 1))
    ∃ told after, t.refresh keys = .ok (told, after) ∧ after.refreshes = t.refreshes + 1 ∧
      after.latch.hold = t.latch.hold ∧ after.Tracks later (stream ++ told.events) (t.refreshes + 2) ∧
      told.Punctual later t.latch.hold (t.refreshes + 1) := by
  obtain ⟨reported, mid, hreported, refreshes, hold, tracks⟩ := h.beginRefresh.translateAll fits
  have punctual := tracks.punctual reported
  have quiet := tracks.madeUpReleases
  have fixed := madeUpReleases_fallback tracks.fallback
  rw [refreshes] at quiet
  rw [hold, refreshes] at punctual
  refine ⟨⟨reported, mid.madeUpReleases.1⟩, mid.madeUpReleases.2, ?_, ?_, ?_, ?_, punctual⟩
  · rw [KeyTranslator.refresh, hreported]
    rfl
  · rw [fixed]
    exact refreshes
  · rw [fixed]
    exact hold
  · rw [Refreshed.events, ← List.append_assoc]
    exact quiet

private theorem refreshAll (keyHold : Nat) (batches : List (List KeyEvent))
    (fits : batches.length + max keyHold 1 < Word.limit) :
    ∃ told last, (ofHold false keyHold).refreshAll batches = .ok (told, last) ∧
      told.length = batches.length ∧ last.refreshes = batches.length ∧
      last.latch.hold = max keyHold 1 ∧
      last.Tracks (dated batches) (told.flatMap Refreshed.events) (batches.length + 1) ∧
      ∀ final, told.getLast? = some final →
        final.Punctual (dated batches) (max keyHold 1) batches.length := by
  induction batches using List.reverseRecOn with
  | nil => exact ⟨[], _, rfl, rfl, rfl, rfl, tracks_ofHold keyHold, nofun⟩
  | append_singleton earlier keys ih =>
    rw [List.length_append, List.length_singleton] at fits ⊢
    obtain ⟨told, t, hearlier, length, refreshes, hold, tracks, -⟩ := ih (by omega)
    rw [← refreshes] at tracks
    obtain ⟨new, last, hnew, refreshes', hold', tracks', punctual⟩ :=
      tracks.refresh keys (by rw [refreshes, hold]; exact fits)
    rw [refreshes, ← dated_concat] at tracks' punctual
    rw [hold] at punctual
    refine ⟨told ++ [new], last, ?_, by simp [length], by rw [refreshes', refreshes],
      hold'.trans hold, by simpa using tracks', fun final hfinal => ?_⟩
    · rw [refreshAll_append]
      exact ArithmeticFault.bind_eq_ok_iff.mpr ⟨_, hearlier, ArithmeticFault.bind_eq_ok_iff.mpr
        ⟨_, ArithmeticFault.bind_eq_ok_iff.mpr ⟨_, hnew, rfl⟩, rfl⟩⟩
    · rw [List.getLast?_concat] at hfinal
      cases hfinal
      exact punctual

private theorem isHeld_iff (h : t.Tracks history stream now) (c : Char) :
    t.latch.isHeld c = true ↔
      ∃ p, IsGreatest (heldSince history c) p ∧ now ≤ p + t.latch.hold := by
  rw [ReleaseLatch.isHeld, Option.isSome_iff_exists]
  simp only [h.due c]
  constructor
  · rintro ⟨_, p, greatest, rfl, within⟩
    exact ⟨p, greatest, within⟩
  · rintro ⟨p, greatest, within⟩
    exact ⟨_, p, greatest, rfl, within⟩

end Tracks

/-- Over every sequence of refreshes of a translator for terminals without releases, each key is told of
in turn that it is down and that it is up, beginning with down. After each refresh the last word on a key
is that it is down exactly if it was pressed or repeated less than a hold ago and no release of it was
reported since. At each refresh the releases that are made up, after all else, are those of the keys that
were last pressed a whole hold ago, in ascending order. -/
theorem releases_made_up (keyHold : Nat) (batches : List (List KeyEvent))
    (fits : batches.length + max keyHold 1 < Word.limit) :
    let hold := max keyHold 1
    ∃ told last, (ofHold false keyHold).refreshAll batches = .ok (told, last) ∧
      told.length = batches.length ∧
      (∀ c, Alternates (turns (told.flatMap Refreshed.events) c)) ∧
      (∀ refresh ≤ batches.length, ∀ c,
        downAfter (turns ((told.take refresh).flatMap Refreshed.events) c) = true ↔
          ∃ p ∈ heldSince (dated (batches.take refresh)) c, refresh < p + hold) ∧
      ∀ (refresh : Nat) (ran : refresh < told.length),
        told[refresh].Punctual (dated (batches.take (refresh + 1))) hold (refresh + 1) := by
  intro hold
  obtain ⟨told, last, hrun, length, -, -, tracks, -⟩ := Tracks.refreshAll keyHold batches fits
  -- what was told up to a refresh is what is told in a run that ends there
  have prefixes (n : Nat) (hn : n ≤ batches.length) : ∃ mid : KeyTranslator,
      mid.latch.hold = hold ∧ mid.Tracks (dated (batches.take n))
        ((told.take n).flatMap Refreshed.events) (n + 1) ∧
      ∀ final, (told.take n).getLast? = some final →
        final.Punctual (dated (batches.take n)) hold n := by
    have short : (batches.take n).length = n := List.length_take_of_le hn
    obtain ⟨told', mid, hrun', -, -, hold', tracks', punctual⟩ :=
      Tracks.refreshAll keyHold (batches.take n) (by rw [short]; omega)
    obtain ⟨mid', htaken⟩ := refreshAll_take hrun n
    cases hrun'.symm.trans htaken
    rw [short] at tracks' punctual
    exact ⟨mid, hold', tracks', punctual⟩
  refine ⟨told, last, hrun, length, tracks.inStep.alternates, fun refresh hle c => ?_,
    fun refresh ran => ?_⟩
  · obtain ⟨mid, hhold, tracks', -⟩ := prefixes refresh hle
    rw [tracks'.inStep.told c, tracks'.isHeld_iff, hhold, exists_heldSince_iff tracks'.past]
    rfl
  · obtain ⟨mid, -, -, punctual⟩ := prefixes (refresh + 1) (by omega)
    refine punctual _ ?_
    rw [List.take_add_one, List.getElem?_eq_getElem ran]
    exact List.getLast?_concat

/-- One key is held by a repeat and let go after it, another typed in upper case goes quiet before that,
and a third is released by the terminal itself. -/
theorem releases_made_up_of_typing :
    let batches : List (List KeyEvent) := [[⟨.char 'w', .press, false⟩, ⟨.char 'A', .press, false⟩],
      [⟨.char 'w', .repeated, false⟩], [⟨.char 'c', .press, true⟩],
      [⟨.char 'q', .press, false⟩, ⟨.char 'Q', .release, false⟩]]
    batches.length + max 2 1 < Word.limit ∧
    ∃ told last, (ofHold false 2).refreshAll batches = .ok (told, last) ∧
      told.map Refreshed.events = [[.key 'w' true, .key 'a' true], [], [.quit, .key 'a' false],
        [.key 'q' true, .key 'q' false, .key 'w' false]] ∧
      (∀ c, Alternates (turns (told.flatMap Refreshed.events) c)) ∧
      ∃ p ∈ heldSince (dated (batches.take 3)) 'w', 3 < p + 2 := by
  intro batches
  have fits : batches.length + max 2 1 < Word.limit := by decide
  obtain ⟨told, last, hrun, -, alternates, down, -⟩ := releases_made_up 2 batches fits
  have events : ((ofHold false 2).refreshAll batches).map (·.1) = .ok [
      ⟨[.key 'w' true, .key 'a' true], []⟩, ⟨[], []⟩, ⟨[.quit], [.key 'a' false]⟩,
      ⟨[.key 'q' true, .key 'q' false], [.key 'w' false]⟩] := by decide +kernel
  rw [hrun] at events
  cases events
  exact ⟨fits, _, last, hrun, rfl, alternates, (down 3 (by decide) 'w').mp (by decide)⟩

end KeyTranslator

end Chip8Console
