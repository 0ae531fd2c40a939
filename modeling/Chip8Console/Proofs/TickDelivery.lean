import Chip8Console.Number.Word
import Chip8Console.Proofs.GrowingLog
import Chip8Console.Refresh.Queue
import Mathlib.Data.List.DropRight
import Mathlib.Data.List.Nodup

/-!
What a queue of ticks gives up, told from what was done with it. A tick is given up at the first boundary
behind its request unless it was withdrawn before, and at no other one. Ticks are told apart by their
handles, since many may be for one session.
-/
namespace Chip8Console.RefreshQueue

inductive Call where
  | request (token : Token)
  | cancel (handle : TickHandle)
  | fire
deriving DecidableEq, Repr

/-- Something that was done with a queue, and what came of it. -/
inductive Event where
  | requested (token : Token) (handle : TickHandle)
  | cancelled (handle : TickHandle)
  | fired (due : List Token)
deriving DecidableEq, Repr

def perform (q : RefreshQueue) : Call → Event × RefreshQueue
  | .request token => (.requested token (q.request token).1, (q.request token).2)
  | .cancel handle => (.cancelled handle, q.cancel handle)
  | .fire => (.fired q.fire.1, q.fire.2)

/-- Do one thing after the other. What is asked for while the ticks of a boundary run stands behind that
boundary. -/
def performAll (q : RefreshQueue) (calls : List Call) : List Event × RefreshQueue :=
  calls.foldl (fun done call => (done.1 ++ [(done.2.perform call).1], (done.2.perform call).2)) ([], q)

private theorem performAll_concat (q : RefreshQueue) (calls : List Call) (call : Call) :
    q.performAll (calls ++ [call]) =
      ((q.performAll calls).1 ++ [((q.performAll calls).2.perform call).1],
        ((q.performAll calls).2.perform call).2) := by
  simp only [performAll, List.foldl_append, List.foldl_cons, List.foldl_nil]

namespace Event

def issued? : Event → Option TickHandle
  | requested _ handle => some handle
  | _ => none

def isFire : Event → Bool
  | fired _ => true
  | _ => false

end Event

def handles (events : List Event) : List TickHandle := events.filterMap Event.issued?

/-- The requests that none of the events behind them withdraws, oldest first. -/
def standing : List Event → List (TickHandle × Token)
  | [] => []
  | .requested token handle :: later =>
    if .cancelled handle ∈ later then standing later else (handle, token) :: standing later
  | _ :: later => standing later

/-- The requests made since the last boundary and not withdrawn, oldest first. -/
def outstanding (events : List Event) : List (TickHandle × Token) :=
  standing (events.rtakeWhile fun e => !e.isFire)

private theorem standing_requested (events : List Event) (token : Token) (handle : TickHandle) :
    standing (events ++ [.requested token handle]) = standing events ++ [(handle, token)] := by
  induction events with
  | nil => rfl
  | cons e events ih =>
    cases e with
    | requested other earlier =>
      simp only [List.cons_append, standing, ih, List.mem_append, List.mem_singleton, reduceCtorEq,
        or_false]
      split <;> rfl
    | cancelled | fired => exact ih

private theorem standing_cancelled (events : List Event) (handle : TickHandle) :
    standing (events ++ [.cancelled handle]) =
      (standing events).filter fun entry => entry.1 != handle := by
  induction events with
  | nil => rfl
  | cons e events ih =>
    cases e with
    | requested token earlier =>
      simp only [List.cons_append, standing, ih, List.mem_append, List.mem_singleton,
        Event.cancelled.injEq]
      by_cases withdrawn : .cancelled earlier ∈ events
      · rw [if_pos (.inl withdrawn), if_pos withdrawn]
      · by_cases same : earlier = handle
        · subst same
          simp [withdrawn]
        · simp [withdrawn, same]
    | cancelled | fired => exact ih

private theorem outstanding_requested (events : List Event) (token : Token) (handle : TickHandle) :
    outstanding (events ++ [.requested token handle]) = outstanding events ++ [(handle, token)] := by
  rw [outstanding, List.rtakeWhile_concat_pos _ _ _ rfl, standing_requested, outstanding]

private theorem outstanding_cancelled (events : List Event) (handle : TickHandle) :
    outstanding (events ++ [.cancelled handle]) =
      (outstanding events).filter fun entry => entry.1 != handle := by
  rw [outstanding, List.rtakeWhile_concat_pos _ _ _ rfl, standing_cancelled, outstanding]

private theorem outstanding_fired (events : List Event) (due : List Token) :
    outstanding (events ++ [.fired due]) = [] := by
  rw [outstanding, List.rtakeWhile_concat_neg _ _ _ (by simp [Event.isFire]), standing]

private theorem mem_outstanding (before : List Event) {between : List Event} {token : Token}
    {handle : TickHandle} (unbroken : ∀ e ∈ between, e.isFire = false)
    (kept : .cancelled handle ∉ between) :
    (handle, token) ∈ outstanding (before ++ .requested token handle :: between) := by
  induction between using List.reverseRecOn with
  | nil =>
    rw [outstanding_requested]
    exact List.mem_append_right _ (List.mem_singleton_self _)
  | append_singleton between e ih =>
    rw [List.forall_mem_append, List.forall_mem_singleton] at unbroken
    rw [List.mem_append, List.mem_singleton, not_or] at kept
    have before_e := ih unbroken.1 kept.1
    rw [← List.cons_append, ← List.append_assoc]
    cases e with
    | requested other later =>
      rw [outstanding_requested]
      exact List.mem_append_left _ before_e
    | cancelled other =>
      rw [outstanding_cancelled, List.mem_filter, bne_iff_ne]
      exact ⟨before_e, fun same => kept.2 (congrArg Event.cancelled same)⟩
    | fired due => cases unbroken.2

/-- What is outstanding was asked for behind the last boundary and not withdrawn since. -/
theorem mem_outstanding_iff {events : List Event} {token : Token} {handle : TickHandle} :
    (handle, token) ∈ outstanding events ↔ ∃ before between,
      events = before ++ .requested token handle :: between ∧
        (∀ e ∈ between, e.isFire = false) ∧ .cancelled handle ∉ between := by
  constructor
  · intro h
    induction events using List.reverseRecOn with
    | nil => cases h
    | append_singleton events e ih =>
      cases e with
      | requested other latest =>
        rw [outstanding_requested, List.mem_append, List.mem_singleton, Prod.mk.injEq] at h
        obtain h | ⟨rfl, rfl⟩ := h
        · obtain ⟨before, between, rfl, unbroken, kept⟩ := ih h
          refine ⟨before, between ++ [.requested other latest], by simp, ?_, by simpa using kept⟩
          simpa [or_imp, forall_and, Event.isFire] using unbroken
        · exact ⟨events, [], rfl, nofun, List.not_mem_nil⟩
      | cancelled other =>
        rw [outstanding_cancelled, List.mem_filter, bne_iff_ne] at h
        obtain ⟨before, between, rfl, unbroken, kept⟩ := ih h.1
        refine ⟨before, between ++ [.cancelled other], by simp, ?_, by simpa [kept] using h.2⟩
        simpa [or_imp, forall_and, Event.isFire] using unbroken
      | fired due =>
        rw [outstanding_fired] at h
        cases h
  · rintro ⟨before, between, rfl, unbroken, kept⟩
    exact mem_outstanding before unbroken kept

/-- A queue with what was done with it, since it was new. -/
structure Recorded (events : List Event) (q : RefreshQueue) : Prop where
  /-- handles are numbered in the order of their requests -/
  issued : handles events = (List.range q.requested).map fun k => ⟨k + 1⟩
  pending : q.pending = outstanding events
  /-- each boundary gave up what was outstanding before it -/
  given : ∀ earlier due later, events = earlier ++ .fired due :: later →
    due = (outstanding earlier).map Prod.snd

variable {events : List Event} {q : RefreshQueue}

private theorem Recorded.perform (h : Recorded events q) (call : Call) :
    Recorded (events ++ [(q.perform call).1]) (q.perform call).2 where
  issued := by
    rw [handles, List.filterMap_append, ← handles, h.issued]
    cases call with
    | request token =>
      change _ ++ [TickHandle.mk (q.requested + 1)] = (List.range (q.requested + 1)).map _
      rw [List.range_succ, List.map_append, List.map_singleton]
    | cancel | fire => exact List.append_nil _
  pending := by
    cases call with
    | request token =>
      rw [RefreshQueue.perform, outstanding_requested, ← h.pending]
      rfl
    | cancel handle =>
      rw [RefreshQueue.perform, outstanding_cancelled, ← h.pending]
      rfl
    | fire =>
      rw [RefreshQueue.perform, outstanding_fired]
      rfl
  given earlier due later split := by
    obtain ⟨later, rfl, before⟩ | ⟨rfl, rfl, fired⟩ := append_eq_append_singleton split
    · exact h.given earlier due later before
    · cases call with
      | request | cancel => cases fired
      | fire =>
        cases fired
        rw [← h.pending]
        rfl

private theorem recorded_performAll (calls : List Call) :
    Recorded (performAll {} calls).1 (performAll {} calls).2 := by
  induction calls using List.reverseRecOn with
  | nil =>
    refine ⟨rfl, rfl, fun earlier due later split => ?_⟩
    exact absurd split.symm (List.append_ne_nil_of_right_ne_nil _ (List.cons_ne_nil _ _))
  | append_singleton calls call ih =>
    rw [performAll_concat]
    exact ih.perform call

private theorem Recorded.handles_nodup (h : Recorded events q) : (handles events).Nodup := by
  rw [h.issued]
  exact List.nodup_range.map fun a b same => Nat.succ.inj (TickHandle.mk.inj same)

private theorem Recorded.requested_once (h : Recorded events q) {before after before' after' : List Event}
    {token token' : Token} {handle : TickHandle}
    (here : events = before ++ .requested token handle :: after)
    (there : events = before' ++ .requested token' handle :: after') :
    before = before' ∧ token = token' := by
  have alone : (handles before ++ handle :: handles after).Nodup := by
    have nodup := h.handles_nodup
    rw [here, handles, List.filterMap_append] at nodup
    exact nodup
  rw [List.nodup_middle, List.nodup_cons, List.mem_append, not_or] at alone
  have absent {side : List Event} (missing : handle ∉ handles side) :
      .requested token' handle ∉ side := fun mem =>
    missing (List.mem_filterMap.mpr ⟨_, mem, rfl⟩)
  have same := (List.append_cons_inj_of_notMem (absent alone.1.1) (absent alone.1.2)).mp
    (here.symm.trans there)
  exact ⟨same.1, (Event.requested.inj same.2.1).1⟩

private theorem standing_sublist (events : List Event) :
    ((standing events).map Prod.fst).Sublist (handles events) := by
  induction events with
  | nil => exact List.Sublist.refl _
  | cons e events ih =>
    cases e with
    | requested token handle =>
      simp only [standing]
      split
      · exact ih.cons handle
      · exact ih.cons_cons handle
    | cancelled | fired => exact ih

private theorem outstanding_nodup (h : (handles events).Nodup) :
    ((outstanding events).map Prod.fst).Nodup :=
  h.sublist ((standing_sublist _).trans ((List.rtakeWhile_suffix _ _).sublist.filterMap _))

private theorem cancel_of_notMem {handle : TickHandle} (absent : handle ∉ q.pending.map Prod.fst) :
    q.cancel handle = q := by
  have kept : q.pending.filter (fun entry => entry.1 != handle) = q.pending := by
    refine List.filter_eq_self.mpr fun entry mem => bne_iff_ne.mpr fun same => absent ?_
    exact List.mem_map.mpr ⟨entry, mem, same⟩
  rw [cancel, kept]

private theorem cancel_of_split {before after : List (TickHandle × Token)} {handle : TickHandle}
    {token : Token} (distinct : (q.pending.map Prod.fst).Nodup)
    (split : q.pending = before ++ (handle, token) :: after) :
    q.cancel handle = { q with pending := before ++ after } := by
  rw [split, List.map_append, List.map_cons, List.nodup_middle, List.nodup_cons, ← List.map_append]
    at distinct
  -- without its request the handle is one that is not pending
  have rest := cancel_of_notMem (q := { q with pending := before ++ after }) distinct.1
  rw [← rest, cancel, cancel, split]
  simp

/-- Over every use of a queue no handle is given out twice, and none is too long for a word while the
requests can be counted in one. Each boundary gives up what was outstanding before it, in the order of
the requests. A request is among that at the first boundary behind it unless it was withdrawn in between,
and at no other boundary. Withdrawing leaves the queue alone unless the tick is outstanding, and then
takes out that tick alone. What waits is always what is outstanding. -/
theorem delivers_each_once (calls : List Call) :
    let events := (performAll {} calls).1
    let q := (performAll {} calls).2
    (handles events).Nodup ∧
    ((handles events).length < Word.limit → ∀ handle ∈ handles events, handle.number < Word.limit) ∧
    (∀ earlier due later, events = earlier ++ .fired due :: later →
      due = (outstanding earlier).map Prod.snd) ∧
    (∀ before token handle after, events = before ++ .requested token handle :: after →
      ∀ earlier due later, events = earlier ++ .fired due :: later →
        (handle ∈ (outstanding earlier).map Prod.fst ↔
          ∃ between, earlier = before ++ .requested token handle :: between ∧
            (∀ e ∈ between, e.isFire = false) ∧ .cancelled handle ∉ between)) ∧
    (∀ handle, handle ∉ (outstanding events).map Prod.fst → q.cancel handle = q) ∧
    (∀ before handle token after, outstanding events = before ++ (handle, token) :: after →
      q.cancel handle = { q with pending := before ++ after }) ∧
    q.pending = outstanding events ∧ q.length = (outstanding events).length := by
  intro events q
  have recorded : Recorded events q := recorded_performAll calls
  refine ⟨recorded.handles_nodup, ?words, recorded.given, ?once, ?absent, ?present, recorded.pending,
    congrArg List.length recorded.pending⟩
  case words =>
    intro few handle mem
    rw [recorded.issued] at few mem
    obtain ⟨k, hk, rfl⟩ := List.mem_map.mp mem
    rw [List.length_map, List.length_range] at few
    exact Nat.lt_of_le_of_lt (List.mem_range.mp hk) few
  case once =>
    intro before token handle after here earlier due later boundary
    constructor
    · intro mem
      obtain ⟨⟨_, other⟩, standing, rfl⟩ := List.mem_map.mp mem
      obtain ⟨before', between, rfl, unbroken, kept⟩ := mem_outstanding_iff.mp standing
      rw [List.append_assoc, List.cons_append] at boundary
      obtain ⟨rfl, rfl⟩ := recorded.requested_once here boundary
      exact ⟨between, rfl, unbroken, kept⟩
    · rintro ⟨between, rfl, unbroken, kept⟩
      exact List.mem_map.mpr ⟨_, mem_outstanding before unbroken kept, rfl⟩
  case absent =>
    intro handle absent
    exact cancel_of_notMem (recorded.pending ▸ absent)
  case present =>
    intro before handle token after split
    refine cancel_of_split ?_ (recorded.pending.trans split)
    rw [recorded.pending]
    exact outstanding_nodup recorded.handles_nodup

/-- Two ticks of one session are asked for and the first is withdrawn. The other is given up at the
boundary and asked for again while it runs; its old handle is then withdrawn in vain. -/
theorem delivers_each_once_of_withdrawn :
    let asked : List Call := [.request ⟨1⟩, .request ⟨1⟩, .cancel ⟨1⟩]
    let calls : List Call := asked ++ [.fire, .request ⟨1⟩, .cancel ⟨2⟩]
    let earlier : List Event := [.requested ⟨1⟩ ⟨1⟩, .requested ⟨1⟩ ⟨2⟩, .cancelled ⟨1⟩]
    let later : List Event := [.requested ⟨1⟩ ⟨3⟩, .cancelled ⟨2⟩]
    (performAll {} calls).1 = earlier ++ .fired [⟨1⟩] :: later ∧
      ⟨1⟩ ∉ (outstanding earlier).map Prod.fst ∧ ⟨2⟩ ∈ (outstanding earlier).map Prod.fst ∧
      (performAll {} calls).2.cancel ⟨2⟩ = (performAll {} calls).2 ∧
      (performAll {} calls).2.cancel ⟨3⟩ = ⟨3, []⟩ ∧ (performAll {} calls).2.length = 1 := by
  intro asked calls earlier later
  obtain ⟨-, -, -, once, absent, present, -, length⟩ := delivers_each_once calls
  refine ⟨rfl, fun mem => ?_, ?_, absent ⟨2⟩ (by decide), present [] ⟨3⟩ ⟨1⟩ [] (by decide), length⟩
  · obtain ⟨between, split, -, kept⟩ := (once [] ⟨1⟩ ⟨1⟩ _ rfl earlier [⟨1⟩] later rfl).mp mem
    rw [List.nil_append, List.cons.injEq] at split
    exact kept (split.2 ▸ by decide)
  · exact (once [.requested ⟨1⟩ ⟨1⟩] ⟨1⟩ ⟨2⟩ _ rfl earlier [⟨1⟩] later rfl).mpr
      ⟨[.cancelled ⟨1⟩], rfl, by decide, by decide⟩

end Chip8Console.RefreshQueue
