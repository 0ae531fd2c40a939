import Chip8Console.Machine.Scripted
import Chip8Console.Proofs.ConsoleMoves
import Chip8Console.Proofs.GrowingLog
import Chip8Console.Screen.Recording
import Mathlib.Data.List.Nodup

/-!
Selections on their way through the loader. However many pile up while images are fetched, and whenever
they are answered and collected, only the last one can change what runs, and once it is through nothing
is awaited any more.
-/
namespace Chip8Console

namespace RomLoader

/-- The worker answers every request that waits, in turn, and each with its own ticket. -/
theorem workAll_answers (l : RomLoader) (answer : RomRequest → Fetched) :
    (l.workAll answer).waiting = [] ∧ (l.workAll answer).finished =
      l.finished ++ l.waiting.map fun entry => (entry.1, (answer entry.2).result) := by
  have hmany (waiting : List (LoadTicket × RomRequest)) (finished : List LoadResult) :
      (⟨waiting, finished⟩ : RomLoader).workMany answer waiting.length =
        ⟨[], finished ++ waiting.map fun entry => (entry.1, (answer entry.2).result)⟩ := by
    induction waiting generalizing finished with
    | nil => simp [workMany]
    | cons entry rest ih =>
      rw [List.length_cons, workMany]
      refine (ih _).trans ?_
      simp
  rw [workAll, hmany l.waiting l.finished]
  exact ⟨rfl, rfl⟩

end RomLoader

namespace SessionManager
variable {M R D S : Type}

def playing (m : SessionManager M) : Option (Token × String) :=
  m.session.map fun s => (s.token, s.rom)

/-- Two managers that differ at most in keys and in what the machine and the scheduler of the running
session have come to. -/
structure Alike (m m' : SessionManager M) : Prop where
  factory : m'.factory = m.factory
  awaited : m'.awaited = m.awaited
  selections : m'.selections = m.selections
  built : m'.built = m.built
  playing : m'.playing = m.playing

private theorem Alike.refl (m : SessionManager M) : Alike m m := ⟨rfl, rfl, rfl, rfl, rfl⟩

private theorem keyEvent_alike [Machine M] (m : SessionManager M) (c : Char) (pressed : Bool) :
    Alike m (m.keyEvent c pressed).1 := by
  generalize hafter : m.keyEvent c pressed = after
  cases keyEvent_keying hafter with
  | kept => exact ⟨rfl, rfl, rfl, rfl, rfl⟩
  | forwarded key session changed running =>
    refine ⟨rfl, rfl, rfl, rfl, ?_⟩
    rw [playing, playing, running]
    rfl

private theorem onTick_alike [Machine M] [RefreshHost R] [Display D] [Sound S] {m : SessionManager M}
    {token : Token} {refresh : R} {sinks : Sinks D S} {dice : Dice} {delivered : Delivered M R D S}
    (h : m.onTick token refresh sinks dice = .ok delivered) : Alike m delivered.manager := by
  have advanced {session : Session M} {ticked : Scheduler.Ticked M D S} (pending : Option TickHandle)
      (live : m.live? token = some session) : Alike m (m.advanced session ticked pending) := by
    refine ⟨rfl, rfl, rfl, rfl, ?_⟩
    rw [playing, playing, (live?_eq_some_iff.mp live).1]
    rfl
  cases onTick_delivery h with
  | stale => exact .refl m
  | failed session ticked e live => exact advanced _ live
  | ran session ticked outcome live => exact advanced _ live

end SessionManager

namespace Environment
variable {M D S : Type}

def Deed.selection : Deed → Option (LoadTicket × RomRequest)
  | .selected ticket request _ => some (ticket, request)
  | _ => none

def Deed.answer : Deed → Option (LoadTicket × RomRequest × Except ConsoleError Rom)
  | .answered ticket request result => some (ticket, request, result)
  | _ => none

def Deed.load : Deed → Option LoadResult
  | .delivered load _ => some load
  | _ => none

def Deed.activation : Deed → Option LoadTicket
  | .delivered load (.ok (some _)) => some load.1
  | _ => none

/-- Whether no earlier selection is wanted after a deed. -/
def Deed.supersedes : Deed → Bool
  | .selected _ _ _ => true
  | .tornDown => true
  | _ => false

def selections (deeds : List Deed) : List (LoadTicket × RomRequest) := deeds.filterMap Deed.selection

def answers (deeds : List Deed) : List (LoadTicket × RomRequest × Except ConsoleError Rom) :=
  deeds.filterMap Deed.answer

def loads (deeds : List Deed) : List LoadResult := deeds.filterMap Deed.load

def activations (deeds : List Deed) : List LoadTicket := deeds.filterMap Deed.activation

/-- This is the last selection that was made, and nothing in what was done `since` drops it. -/
def LastSelected (deeds : List Deed) (ticket : LoadTicket) (request : RomRequest)
    (running : Option Token) (since : List Deed) : Prop :=
  (∃ before, deeds = before ++ .selected ticket request running :: since) ∧
    ∀ d ∈ since, d.supersedes = false

namespace LastSelected
variable {deeds later since : List Deed} {ticket : LoadTicket} {request : RomRequest}
  {running : Option Token}

private theorem append (h : LastSelected deeds ticket request running since)
    (inert : ∀ d ∈ later, d.supersedes = false) :
    LastSelected (deeds ++ later) ticket request running (since ++ later) := by
  obtain ⟨⟨before, rfl⟩, hsince⟩ := h
  refine ⟨⟨before, ?_⟩, ?_⟩
  · rw [List.append_assoc]
    rfl
  · intro d hd
    exact (List.mem_append.mp hd).elim (hsince d) (inert d)

private theorem of_append (h : LastSelected (deeds ++ later) ticket request running since)
    (inert : ∀ d ∈ later, d.supersedes = false) :
    ∃ between, since = between ++ later ∧ LastSelected deeds ticket request running between := by
  obtain ⟨⟨before, heq⟩, hsince⟩ := h
  rcases append_eq_append_cons heq with ⟨between, rfl, hdeeds⟩ | ⟨between, hlater, -⟩
  · exact ⟨between, rfl, ⟨before, hdeeds⟩, fun d hd => hsince d (List.mem_append_left _ hd)⟩
  · have := inert (.selected ticket request running) (hlater ▸ by simp)
    cases this

private theorem of_append_singleton {last : Deed} (drops : last.supersedes = true)
    (h : LastSelected (deeds ++ [last]) ticket request running since) :
    since = [] ∧ last = .selected ticket request running := by
  obtain ⟨⟨before, heq⟩, hsince⟩ := h
  rcases append_eq_append_singleton heq with ⟨between, rfl, -⟩ | ⟨hsince, -, hlast⟩
  · have := hsince last (by simp)
    rw [drops] at this
    cases this
  · exact ⟨hsince, hlast.symm⟩

private theorem mem_selections (h : LastSelected deeds ticket request running since) :
    (ticket, request) ∈ selections deeds := by
  obtain ⟨⟨before, rfl⟩, -⟩ := h
  exact List.mem_filterMap.mpr ⟨.selected ticket request running, by simp, rfl⟩

private theorem mem_of_mem {d : Deed} (h : LastSelected deeds ticket request running since)
    (hd : d ∈ since) :
    d ∈ deeds := by
  obtain ⟨⟨before, rfl⟩, -⟩ := h
  exact List.mem_append_right _ (List.mem_cons_of_mem _ hd)

end LastSelected

variable [Machine M] [Display D] [Sound S]

private theorem Act.bearing {env env' : Environment M D S} {phase phase' : Phase} {deeds : List Deed}
    (act : Act env phase deeds env' phase') :
    (∃ request, deeds = env.selectDeeds request ∧ env'.sessions = env.sessions.beginLoad.2) ∨
    (∃ load rest done, phase = .delivering (load :: rest) ∧
      env.sessions.completeLoad load.1 load.2 env.refresh = done ∧
      deeds = [.delivered load done.result] ∧ env'.sessions = done.manager) ∨
    (deeds = [.tornDown] ∧ env'.sessions = (env.sessions.teardown env.refresh).1) ∨
    (SessionManager.Alike env.sessions env'.sessions ∧
      ∀ d ∈ deeds, d.supersedes = false ∧ d.load = none) := by
  -- what an act means to the selections: it makes one, passes on the answer to one, drops them, or does not
  -- bear on them
  cases act with
  | select request => exact .inl ⟨request, rfl, rfl⟩
  | deliver load rest =>
    exact .inr (.inl ⟨load, rest, _, rfl, rfl, rfl, env.finishLoad_sessions load⟩)
  | teardown => exact .inr (.inr (.inl ⟨rfl, rfl⟩))
  | key c pressed => exact .inr (.inr (.inr ⟨env.sessions.keyEvent_alike c pressed, List.forall_mem_nil _⟩))
  | report e => exact .inr (.inr (.inr ⟨.refl _, List.forall_mem_nil _⟩))
  | collect => exact .inr (.inr (.inr ⟨.refl _, List.forall_mem_nil _⟩))
  | fire => exact .inr (.inr (.inr ⟨.refl _, List.forall_mem_nil _⟩))
  | rest => exact .inr (.inr (.inr ⟨.refl _, List.forall_mem_nil _⟩))
  | work answer ticket request rest waiting =>
    refine .inr (.inr (.inr ⟨.refl _, fun d hd => ?_⟩))
    obtain rfl := List.mem_singleton.mp hd
    exact ⟨rfl, rfl⟩
  | tick token rest dice ran status h result =>
    refine .inr (.inr (.inr ⟨SessionManager.onTick_alike h, fun d hd => ?_⟩))
    obtain rfl := List.mem_singleton.mp hd
    exact ⟨rfl, rfl⟩
  | fail token rest dice ran e h result =>
    refine .inr (.inr (.inr ⟨SessionManager.onTick_alike h, fun d hd => ?_⟩))
    obtain rfl := List.mem_singleton.mp hd
    exact ⟨rfl, rfl⟩

def Phase.loads : Phase → List LoadResult
  | .delivering loads => loads
  | _ => []

/-- What is in the queues: every request is answered or waits, every answer is passed on, at hand or
waits, all in the order of the tickets. -/
structure Queued (deeds : List Deed) (env : Environment M D S) (phase : Phase) : Prop where
  waiting : (answers deeds).map (fun a => (a.1, a.2.1)) ++ env.loader.waiting = selections deeds
  finished : loads deeds ++ (phase.loads ++ env.loader.finished) =
    (answers deeds).map fun a => (a.1, a.2.2)
  numbered : (selections deeds).map (fun s => s.1.number) =
    List.range' 1 env.sessions.selections

private theorem Act.conserves {env env' : Environment M D S} {phase phase' : Phase}
    {deeds : List Deed} (act : Act env phase deeds env' phase') :
    ((answers deeds).map fun a => (a.1, a.2.1)) ++ env'.loader.waiting =
        env.loader.waiting ++ selections deeds ∧
      loads deeds ++ (phase'.loads ++ env'.loader.finished) =
        (phase.loads ++ env.loader.finished) ++ (answers deeds).map fun a => (a.1, a.2.2) := by
  -- what an act puts into a queue is what the next stage has more of
  cases act with
  | select request => exact ⟨rfl, (List.append_nil _).symm⟩
  | key c pressed => exact ⟨(List.append_nil _).symm, (List.append_nil _).symm⟩
  | report e => exact ⟨(List.append_nil _).symm, (List.append_nil _).symm⟩
  | work answer ticket request rest waiting =>
    simp only [RomLoader.work, waiting]
    exact ⟨(List.append_nil _).symm, (List.append_assoc _ _ _).symm⟩
  | collect =>
    refine ⟨(List.append_nil _).symm, ?_⟩
    change env.loader.finished ++ [] = env.loader.finished ++ []
    rfl
  | deliver load rest =>
    rw [finishLoad_loader]
    exact ⟨(List.append_nil _).symm, (List.append_nil _).symm⟩
  | fire => exact ⟨(List.append_nil _).symm, (List.append_nil _).symm⟩
  | tick => exact ⟨(List.append_nil _).symm, (List.append_nil _).symm⟩
  | fail => exact ⟨(List.append_nil _).symm, (List.append_nil _).symm⟩
  | rest => exact ⟨(List.append_nil _).symm, (List.append_nil _).symm⟩
  | teardown => exact ⟨(List.append_nil _).symm, (List.append_nil _).symm⟩

private theorem Act.numbers {env env' : Environment M D S} {phase phase' : Phase}
    {deeds : List Deed} (act : Act env phase deeds env' phase') :
    List.range' 1 env.sessions.selections ++ (selections deeds).map (fun s => s.1.number) =
      List.range' 1 env'.sessions.selections := by
  have same {n : Nat} (h : n = env.sessions.selections) :
      List.range' 1 env.sessions.selections ++ [] = List.range' 1 n := by
    rw [h, List.append_nil]
  rcases act.bearing with ⟨request, rfl, hsessions⟩ | ⟨load, rest, done, -, hdone, rfl, hsessions⟩ |
    ⟨rfl, hsessions⟩ | ⟨alike, inert⟩
  · rw [hsessions]
    change _ ++ [env.sessions.selections + 1] = List.range' 1 (env.sessions.selections + 1)
    rw [List.range'_1_concat, Nat.add_comm 1]
  · rw [hsessions]
    cases SessionManager.completeLoad_completion hdone <;> exact same rfl
  · rw [hsessions]
    exact same rfl
  · have hnone : selections deeds = [] := by
      refine List.filterMap_eq_nil_iff.mpr fun d hd => ?_
      have := (inert d hd).1
      cases d <;> first | rfl | cases this
    rw [hnone]
    exact same alike.selections

private theorem Queued.act {env env' : Environment M D S} {phase phase' : Phase}
    {before deeds : List Deed} (h : Queued before env phase) (act : Act env phase deeds env' phase') :
    Queued (before ++ deeds) env' phase' := by
  obtain ⟨hwaiting, hfinished⟩ := act.conserves
  constructor
  · rw [answers, selections, List.filterMap_append, List.filterMap_append, List.map_append,
      List.append_assoc]
    refine (congrArg _ hwaiting).trans ?_
    rw [← List.append_assoc]
    exact congrArg (· ++ selections deeds) h.waiting
  · rw [answers, loads, List.filterMap_append, List.filterMap_append, List.map_append,
      List.append_assoc]
    refine (congrArg _ hfinished).trans ?_
    rw [← List.append_assoc]
    exact congrArg (· ++ (answers deeds).map fun a => (a.1, a.2.2)) h.finished
  · rw [selections, List.filterMap_append, List.map_append]
    exact (congrArg (· ++ (selections deeds).map fun s => s.1.number) h.numbered).trans act.numbers

omit [Machine M] [Display D] [Sound S] in
private theorem Queued.load_le {env : Environment M D S} {phase : Phase} {deeds : List Deed}
    (h : Queued deeds env phase) {load : LoadResult} (hload : load ∈ loads deeds) :
    load.1.number ≤ env.sessions.selections := by
  have hanswered : load ∈ (answers deeds).map fun a => (a.1, a.2.2) := by
    rw [← h.finished]
    exact List.mem_append_left _ hload
  obtain ⟨a, ha, rfl⟩ := List.mem_map.mp hanswered
  have hselected : (a.1, a.2.1) ∈ selections deeds := by
    rw [← h.waiting]
    exact List.mem_append_left _ (List.mem_map_of_mem ha)
  have hnumber := List.mem_map_of_mem (f := fun s => s.1.number) hselected
  rw [h.numbered, List.mem_range'_1] at hnumber
  exact Nat.lt_add_one_iff.mp (by simpa [Nat.add_comm] using hnumber.2)

/-- Every session was begun for the selection that was the last one then. -/
def Founded (deeds : List Deed) : Prop :=
  ∀ before load token after, deeds = before ++ .delivered load (.ok (some token)) :: after →
    ∃ request running since, LastSelected before load.1 request running since

private theorem Founded.append {deeds later : List Deed} (h : Founded deeds)
    (quiet : ∀ d ∈ later, d.activation = none) : Founded (deeds ++ later) := by
  intro before load token after heq
  rcases append_eq_append_cons heq with ⟨between, -, hdeeds⟩ | ⟨between, hlater, -⟩
  · exact h before load token between hdeeds
  · have := quiet (.delivered load (.ok (some token))) (hlater ▸ by simp)
    cases this

/-- Deeds that begin no session leave the list of those that were begun. -/
theorem activations_append {deeds later : List Deed} (quiet : ∀ d ∈ later, d.activation = none) :
    activations (deeds ++ later) = activations deeds := by
  rw [activations, List.filterMap_append, List.filterMap_eq_nil_iff.mpr quiet, List.append_nil]
  rfl

/-- What holds of the selection that is awaited and of those that sessions were begun for. -/
structure Newest (deeds : List Deed) (m : SessionManager M) : Prop where
  wanted : ∀ ticket, m.awaited = some ticket →
    ticket.number = m.selections ∧ (∀ load ∈ loads deeds, load.1 ≠ ticket) ∧
      ∃ request running since, LastSelected deeds ticket request running since
  founded : Founded deeds
  ascending : (activations deeds).Pairwise fun earlier later => earlier.number < later.number

private theorem loads_append {deeds later : List Deed} :
    loads (deeds ++ later) = loads deeds ++ loads later :=
  List.filterMap_append

omit [Machine M] in
private theorem Newest.append {deeds later : List Deed} {m m' : SessionManager M}
    (h : Newest deeds m) (awaited : ∀ ticket, m'.awaited = some ticket → m.awaited = some ticket ∧
      m'.selections = m.selections ∧ (∀ load ∈ loads later, load.1 ≠ ticket) ∧
        ∀ d ∈ later, d.supersedes = false)
    (quiet : ∀ d ∈ later, d.activation = none) : Newest (deeds ++ later) m' := by
  refine ⟨fun ticket hticket => ?_, h.founded.append quiet, ?_⟩
  · obtain ⟨hawaited, hselections, hlater, inert⟩ := awaited ticket hticket
    obtain ⟨hnumber, hloads, request, running, since, hlast⟩ := h.wanted ticket hawaited
    refine ⟨hnumber.trans hselections.symm, ?_, request, running, since ++ later, hlast.append inert⟩
    rw [loads_append]
    intro load hload
    exact (List.mem_append.mp hload).elim (hloads load) (hlater load)
  · rw [activations_append quiet]
    exact h.ascending

omit [Machine M] [Display D] [Sound S] in
private theorem Newest.activated {deeds : List Deed} {env : Environment M D S} {phase : Phase}
    {m' : SessionManager M} {load : LoadResult} {token : Token} (q : Queued deeds env phase)
    (h : Newest deeds env.sessions) (wanted : env.sessions.awaited = some load.1)
    (settled : m'.awaited = none) : Newest (deeds ++ [.delivered load (.ok (some token))]) m' := by
  obtain ⟨hnumber, hloads, request, running, since, hlast⟩ := h.wanted load.1 wanted
  refine ⟨fun ticket hticket => (nomatch settled.symm.trans hticket), ?_, ?_⟩
  · intro before other token' after heq
    rcases append_eq_append_singleton heq with ⟨between, -, hdeeds⟩ | ⟨-, rfl, hother⟩
    · exact h.founded before other token' between hdeeds
    · cases hother
      exact ⟨request, running, since, hlast⟩
  · have happend : activations (deeds ++ [.delivered load (.ok (some token))]) =
        activations deeds ++ [load.1] := List.filterMap_append
    rw [happend, List.pairwise_append]
    refine ⟨h.ascending, List.pairwise_singleton _ _, ?_⟩
    intro ticket hticket other hother
    obtain rfl := List.mem_singleton.mp hother
    obtain ⟨d, hd, hactivation⟩ := List.mem_filterMap.mp hticket
    obtain ⟨earlier, hearlier, rfl⟩ : ∃ earlier ∈ loads deeds, earlier.1 = ticket := by
      cases d with
      | delivered earlier result =>
        refine ⟨earlier, List.mem_filterMap.mpr ⟨_, hd, rfl⟩, ?_⟩
        rcases result with e | _ | token <;> cases hactivation
        rfl
      | _ => cases hactivation
    have hle := q.load_le hearlier
    have hne : earlier.1.number ≠ load.1.number := fun hh =>
      hloads earlier hearlier (congrArg LoadTicket.mk hh)
    omega

private theorem Newest.act {env env' : Environment M D S} {phase phase' : Phase}
    {before deeds : List Deed} (q : Queued before env phase) (h : Newest before env.sessions)
    (act : Act env phase deeds env' phase') : Newest (before ++ deeds) env'.sessions := by
  rcases act.bearing with ⟨request, rfl, hsessions⟩ | ⟨load, rest, done, -, hdone, rfl, hsessions⟩ |
    ⟨rfl, hsessions⟩ | ⟨alike, inert⟩
  · rw [hsessions]
    have quiet : ∀ d ∈ env.selectDeeds request, d.activation = none :=
      List.forall_mem_singleton.mpr rfl
    refine ⟨fun ticket hticket => ?_, h.founded.append quiet, ?_⟩
    · obtain rfl : env.sessions.beginLoad.1 = ticket := Option.some.inj hticket
      refine ⟨rfl, ?_, request, _, [], ⟨before, rfl⟩, List.forall_mem_nil _⟩
      have hsame : loads (before ++ env.selectDeeds request) = loads before :=
        loads_append.trans (List.append_nil _)
      rw [hsame]
      intro load hload hh
      have := q.load_le hload
      rw [hh] at this
      exact Nat.not_succ_le_self _ this
    · rw [activations_append quiet]
      exact h.ascending
  · rw [hsessions]
    cases SessionManager.completeLoad_completion hdone with
    | superseded unwanted =>
      refine h.append (fun ticket hticket => ⟨hticket, rfl, ?_, ?_⟩) ?_
      · exact List.forall_mem_singleton.mpr fun hh => unwanted (hh ▸ hticket)
      · exact List.forall_mem_singleton.mpr rfl
      · exact List.forall_mem_singleton.mpr rfl
    | missing => exact h.append nofun (List.forall_mem_singleton.mpr rfl)
    | refused => exact h.append nofun (List.forall_mem_singleton.mpr rfl)
    | activated rom machine loaded notices wanted => exact h.activated q wanted rfl
  · rw [hsessions]
    exact h.append nofun (List.forall_mem_singleton.mpr rfl)
  · have hloads : loads deeds = [] := List.filterMap_eq_nil_iff.mpr fun d hd => (inert d hd).2
    refine h.append (fun ticket hticket => ⟨?_, alike.selections, ?_, fun d hd => (inert d hd).1⟩) ?_
    · exact alike.awaited.symm.trans hticket
    · rw [hloads]
      exact List.forall_mem_nil _
    · intro d hd
      have := (inert d hd).2
      cases d <;> first | rfl | cases this

/-- What has become of the last selection, which was made while `running` ran. -/
inductive Fate (m : SessionManager M) (ticket : LoadTicket) (running : Option Token)
    (since : List Deed) : Prop
  | awaited (wanted : m.awaited = some ticket) (kept : m.playing.map Prod.fst = running)
  | settled (settled : m.awaited = none) (arrived : Except ConsoleError Rom)
      (result : Except ConsoleError (Option Token))
      (delivered : .delivered (ticket, arrived) result ∈ since)
      (accepted : ∀ rom machine told, arrived = .ok rom →
        Machine.load (m.factory m.built) rom.bytes = .ok (machine, told) →
          ∃ token, result = .ok (some token) ∧ m.playing = some (token, rom.name))
      (kept : (∀ rom machine told, arrived = .ok rom →
        Machine.load (m.factory m.built) rom.bytes ≠ .ok (machine, told)) →
          m.playing.map Prod.fst = running)

private theorem Fate.alike {m m' : SessionManager M} {ticket : LoadTicket} {running : Option Token}
    {since : List Deed} (h : Fate m ticket running since) (alike : SessionManager.Alike m m')
    (later : List Deed) : Fate m' ticket running (since ++ later) := by
  obtain ⟨hfactory, hawaited, -, hbuilt, hplaying⟩ := alike
  cases h with
  | awaited wanted kept => exact .awaited (hawaited.trans wanted) (hplaying ▸ kept)
  | settled settled arrived result delivered accepted kept =>
    refine .settled (hawaited.trans settled) arrived result (List.mem_append_left _ delivered) ?_ ?_
    · rw [hfactory, hbuilt, hplaying]
      exact accepted
    · rw [hfactory, hbuilt, hplaying]
      exact kept

private theorem Fate.deliver {m : SessionManager M} {refresh : RefreshQueue} {load : LoadResult}
    {done : SessionManager.Completed M RefreshQueue} {ticket : LoadTicket} {running : Option Token}
    {since : List Deed} (h : Fate m ticket running since)
    (hdone : m.completeLoad load.1 load.2 refresh = done) :
    Fate done.manager ticket running (since ++ [.delivered load done.result]) := by
  have hticket (wanted : m.awaited = some load.1) :
      load.1 = ticket ∧ m.playing.map Prod.fst = running := by
    cases h with
    | awaited wanted' kept => exact ⟨Option.some.inj (wanted.symm.trans wanted'), kept⟩
    | settled settled => exact absurd (settled.symm.trans wanted) nofun
  have delivered : .delivered load done.result ∈ since ++ [.delivered load done.result] :=
    List.mem_append_right _ (List.mem_singleton_self _)
  cases SessionManager.completeLoad_completion hdone with
  | superseded unwanted => exact h.alike (.refl m) _
  | missing e wanted failed =>
    obtain ⟨rfl, kept⟩ := hticket wanted
    refine .settled rfl load.2 _ delivered ?_ fun _ => kept
    intro rom machine told came
    rw [failed] at came
    cases came
  | refused rom e wanted came refusal =>
    obtain ⟨rfl, kept⟩ := hticket wanted
    refine .settled rfl load.2 _ delivered ?_ fun _ => kept
    intro rom' machine told came' taken
    obtain rfl := Except.ok.inj (came.symm.trans came')
    exact absurd (refusal.symm.trans taken) nofun
  | activated rom machine loaded notices wanted came taken =>
    obtain ⟨rfl, -⟩ := hticket wanted
    refine .settled rfl load.2 _ delivered ?_ fun refusal => ?_
    · intro rom' machine' told came' taken'
      obtain rfl := Except.ok.inj (came.symm.trans came')
      exact ⟨_, rfl, rfl⟩
    · exact absurd taken (refusal rom machine loaded came)

private theorem Fate.act {env env' : Environment M D S} {phase phase' : Phase}
    {before deeds : List Deed}
    (h : ∀ ticket request running since, LastSelected before ticket request running since →
      Fate env.sessions ticket running since)
    (act : Act env phase deeds env' phase') (ticket : LoadTicket) (request : RomRequest)
    (running : Option Token) (since : List Deed)
    (last : LastSelected (before ++ deeds) ticket request running since) :
    Fate env'.sessions ticket running since := by
  rcases act.bearing with ⟨asked, rfl, hsessions⟩ | ⟨load, rest, done, -, hdone, rfl, hsessions⟩ |
    ⟨rfl, hsessions⟩ | ⟨alike, inert⟩
  · obtain ⟨rfl, hlast⟩ := last.of_append_singleton rfl
    cases hlast
    rw [hsessions]
    refine .awaited rfl ?_
    simp [SessionManager.playing, SessionManager.beginLoad, Function.comp_def]
  · obtain ⟨between, rfl, hbetween⟩ := last.of_append (List.forall_mem_singleton.mpr rfl)
    rw [hsessions]
    exact (h ticket request running between hbetween).deliver hdone
  · obtain ⟨-, hlast⟩ := last.of_append_singleton rfl
    cases hlast
  · obtain ⟨between, rfl, hbetween⟩ := last.of_append fun d hd => (inert d hd).1
    exact (h ticket request running between hbetween).alike alike deeds

omit [Machine M] [Display D] [Sound S] in
private theorem Queued.answered {env : Environment M D S} {phase : Phase} {deeds : List Deed}
    (h : Queued deeds env phase) {ticket : LoadTicket} {request : RomRequest}
    {arrived : Except ConsoleError Rom} (selected : (ticket, request) ∈ selections deeds)
    (delivered : (ticket, arrived) ∈ loads deeds) : .answered ticket request arrived ∈ deeds := by
  have hanswered : (ticket, arrived) ∈ (answers deeds).map fun a => (a.1, a.2.2) := by
    rw [← h.finished]
    exact List.mem_append_left _ delivered
  obtain ⟨a, ha, heq⟩ := List.mem_map.mp hanswered
  obtain ⟨rfl, rfl⟩ := Prod.mk.inj heq
  have hselected : (a.1, a.2.1) ∈ selections deeds := by
    rw [← h.waiting]
    exact List.mem_append_left _ (List.mem_map_of_mem ha)
  have hdistinct : ((selections deeds).map fun s => s.1.number).Nodup := by
    rw [h.numbered]
    exact List.nodup_range'
  have hrequest := List.inj_on_of_nodup_map hdistinct hselected selected rfl
  obtain rfl : a.2.1 = request := congrArg Prod.snd hrequest
  obtain ⟨d, hd, hanswer⟩ := List.mem_filterMap.mp ha
  cases d with
  | answered ticket request result =>
    cases hanswer
    exact hd
  | _ => cases hanswer

omit [Machine M] [Display D] [Sound S] in
private theorem Queued.delivered {env : Environment M D S} {deeds : List Deed}
    (h : Queued deeds env .listening) (waiting : env.loader.waiting = [])
    (finished : env.loader.finished = []) {ticket : LoadTicket} {request : RomRequest}
    (selected : (ticket, request) ∈ selections deeds) : ∃ load ∈ loads deeds, load.1 = ticket := by
  have hanswers := h.waiting
  have hloads : loads deeds ++ ([] ++ env.loader.finished) = _ := h.finished
  rw [waiting, List.append_nil] at hanswers
  rw [finished, List.append_nil, List.append_nil] at hloads
  rw [← hanswers] at selected
  obtain ⟨a, ha, heq⟩ := List.mem_map.mp selected
  rw [hloads]
  exact ⟨_, List.mem_map_of_mem ha, congrArg Prod.fst heq⟩

omit [Sound S] in
private theorem finishAll_loader (env : Environment M D S) (loads : List LoadResult) :
    (env.finishAll loads).1.loader = env.loader := by
  induction loads generalizing env with
  | nil => rfl
  | cons load rest ih => exact (ih _).trans (env.finishLoad_loader load)

private theorem runTicks_loader {env : Environment M D S} {dice : Dice} {due : List Token}
    {ran : Outcome M D S (Except ConsoleError Flow)} (h : env.runTicks dice due = .ok ran) :
    ran.environment.loader = env.loader := by
  induction due generalizing env ran with
  | nil =>
    cases h
    rfl
  | cons token rest ih =>
    obtain ⟨first, hfirst, hrest⟩ := ArithmeticFault.bind_eq_ok_iff.mp h
    cases result : first.result with
    | error e =>
      rw [result] at hrest
      cases hrest
      rfl
    | ok status =>
      rw [result] at hrest
      obtain ⟨others, hothers, hran⟩ := ArithmeticFault.bind_eq_ok_iff.mp hrest
      cases hran
      have tail := ih hothers
      exact tail

private theorem step_finished {env : Environment M D S} {answer : RomRequest → Fetched}
    {world : Surroundings} {stepped : Outcome M D S (Except ConsoleError Flow)}
    (h : env.step answer world = .ok stepped) (goes : stepped.result = .ok .goOn) :
    stepped.environment.loader.finished = [] := by
  unfold step at h
  cases hpolled : world.polled with
  | error cause =>
    rw [hpolled] at h
    cases h
    cases goes
  | ok events =>
    simp only [hpolled] at h
    cases hresult : (env.handleAll events).result with
    | quit =>
      rw [hresult] at h
      cases h
      cases goes
    | goOn =>
      rw [hresult] at h
      obtain ⟨refreshed, hrefreshed, hstepped⟩ := ArithmeticFault.bind_eq_ok_iff.mp h
      obtain ⟨ran, hran, hrest⟩ := ArithmeticFault.bind_eq_ok_iff.mp hrefreshed
      cases hrest
      cases hstepped
      change ran.environment.loader.finished = []
      rw [runTicks_loader hran]
      exact congrArg RomLoader.finished (finishAll_loader _ _)

private theorem Run.selections_hold {factory : Nat → M} {settings : SchedulerSettings} {keys : KeyTable}
    {catalog : List String} {sinks : Sinks D S} {env : Environment M D S} {deeds : List Deed}
    (run : Run (new factory settings keys catalog sinks) env deeds) :
    Queued deeds env .listening ∧ Newest deeds env.sessions ∧
      ∀ ticket request running since, LastSelected deeds ticket request running since →
        Fate env.sessions ticket running since := by
  refine run.invariant (P := fun deeds env phase =>
    Queued deeds env phase ∧ Newest deeds env.sessions ∧
      ∀ ticket request running since, LastSelected deeds ticket request running since →
        Fate env.sessions ticket running since) ?_ ⟨⟨rfl, rfl, rfl⟩, ⟨?_, ?_, .nil⟩, ?_⟩
  · rintro before env env' phase phase' deeds ⟨queued, newest, fate⟩ act
    exact ⟨queued.act act, newest.act queued act, Fate.act fate act⟩
  · exact fun ticket hticket => nomatch hticket
  · intro before load token after heq
    cases before <;> cases heq
  · rintro ticket request running since ⟨⟨before, heq⟩, -⟩
    cases before <;> cases heq

/-- Over every run of the console: the worker answers the requests in the order of their tickets, each
once and with its own ticket, and the answers are passed on in that order. Only the answer to the last
selection of all, not dropped by stopping, begins a session, so sessions begin in the order of their
tickets. Once a step has gone on after which no request waits, nothing is awaited; and unless stopping
came after the last selection, its own image runs if it came and the machine took it, and otherwise
whatever ran when the selection was made still does. While the blocks of the picture have words for
corners, no step ends in a fault. -/
theorem last_selection_wins {factory : Nat → M} {settings : SchedulerSettings} {keys : KeyTable}
    {catalog : List String} {sinks : Sinks D S} {env : Environment M D S} {deeds : List Deed}
    (run : Run (new factory settings keys catalog sinks) env deeds) :
    (((answers deeds).map fun a => (a.1, a.2.1)) ++ env.loader.waiting = selections deeds ∧
      ((selections deeds).map fun s => s.1.number) = List.range' 1 (selections deeds).length ∧
      loads deeds ++ env.loader.finished = ((answers deeds).map fun a => (a.1, a.2.2)) ∧
      ∀ answer, (env.loader.workAll answer).waiting = [] ∧ (env.loader.workAll answer).finished =
        env.loader.finished ++ env.loader.waiting.map fun s => (s.1, (answer s.2).result)) ∧
    ((∀ before load token after, deeds = before ++ .delivered load (.ok (some token)) :: after →
        ∃ request running since, LastSelected before load.1 request running since) ∧
      (activations deeds).Pairwise fun earlier later => earlier.number < later.number) ∧
    (∀ answer world stepped, env.step answer world = .ok stepped → stepped.result = .ok .goOn →
      stepped.environment.loader.waiting = [] →
        stepped.environment.sessions.state ≠ .loading ∧
        ∀ ticket request running since,
          LastSelected (deeds ++ env.stepDeeds answer world) ticket request running since →
            ∃ arrived, .answered ticket request arrived ∈ deeds ++ env.stepDeeds answer world ∧
              (∀ rom machine told, arrived = .ok rom →
                Machine.load (factory stepped.environment.sessions.built) rom.bytes =
                    .ok (machine, told) →
                  ∃ s, stepped.environment.sessions.session = some s ∧ s.rom = rom.name ∧
                    .delivered (ticket, .ok rom) (.ok (some s.token)) ∈ since) ∧
              ((∀ rom machine told, arrived = .ok rom →
                Machine.load (factory stepped.environment.sessions.built) rom.bytes ≠
                    .ok (machine, told)) →
                  stepped.environment.sessions.session.map Session.token = running)) ∧
    ((Frame.width - 1) * max settings.scale 1 < Word.limit →
      ∀ (answer : RomRequest → Fetched) (world : Surroundings),
        ∃ stepped, env.step answer world = .ok stepped) := by
  obtain ⟨queued, newest, -⟩ := run.selections_hold
  refine ⟨⟨queued.waiting, ?_, queued.finished, env.loader.workAll_answers⟩,
    ⟨newest.founded, newest.ascending⟩, ?_, ?_⟩
  · have hlength := congrArg List.length queued.numbered
    rw [List.length_map, List.length_range'] at hlength
    rw [hlength]
    exact queued.numbered
  · intro answer world stepped hstepped goes hwaiting
    have after := run.step answer world stepped hstepped
    obtain ⟨queued, newest, fate⟩ := after.selections_hold
    have hfinished := step_finished hstepped goes
    have unawaited : stepped.environment.sessions.awaited = none := by
      rw [Option.eq_none_iff_forall_ne_some]
      intro ticket hticket
      obtain ⟨-, hloads, request, running, since, hlast⟩ := newest.wanted ticket hticket
      obtain ⟨load, hload, hdelivered⟩ := queued.delivered hwaiting hfinished hlast.mem_selections
      exact hloads load hload hdelivered
    obtain ⟨events, journal, hsessions⟩ := after.sessions
    have hfactory : stepped.environment.sessions.factory = factory := hsessions.fixed.1
    constructor
    · simp only [SessionManager.state, unawaited, Option.isSome_none, Bool.false_eq_true, if_false]
      split <;> nofun
    · intro ticket request running since hlast
      cases fate ticket request running since hlast with
      | awaited wanted => exact absurd (unawaited.symm.trans wanted) nofun
      | settled settled arrived result delivered accepted kept =>
        rw [hfactory] at accepted kept
        have hload : (ticket, arrived) ∈ loads (deeds ++ env.stepDeeds answer world) :=
          List.mem_filterMap.mpr ⟨_, hlast.mem_of_mem delivered, rfl⟩
        refine ⟨arrived, queued.answered hlast.mem_selections hload, ?_, fun refusal => ?_⟩
        · intro rom machine told came taken
          obtain ⟨token, rfl, hplaying⟩ := accepted rom machine told came taken
          obtain ⟨s, hs, hrom⟩ := Option.map_eq_some_iff.mp hplaying
          obtain ⟨rfl, hname⟩ := Prod.mk.inj hrom
          exact ⟨s, hs, hname, came ▸ delivered⟩
        · rw [← kept refusal, SessionManager.playing, Option.map_map]
          rfl
  · intro fits answer world
    obtain ⟨configured, hsettings⟩ := run.configured
    exact step_isOk configured (by rw [hsettings]; exact fits) answer world

/-- Two selections are answered together; the first is dropped and the image of the second runs. -/
theorem last_selection_wins_of_two :
    let started : Environment ScriptedMachine RecordingDisplay Mute :=
      new (fun k => { id := k }) {} .released [] ⟨{}, .mute⟩
    let pong : Rom := ⟨"pong", [0x6A, 0x02], none⟩
    ∃ env deeds since s, Run started env deeds ∧ activations deeds = [⟨2⟩] ∧
      LastSelected deeds ⟨2⟩ (.named "pong") none since ∧ env.sessions.state ≠ .loading ∧
      env.sessions.session = some s ∧ s.rom = "pong" ∧
      .delivered (⟨2⟩, .ok pong) (.ok (some s.token)) ∈ since := by
  intro started pong
  let maze : Rom := ⟨"maze", [0xA2, 0x1E], none⟩
  let answer : RomRequest → Fetched := fun request =>
    { result := .ok (if request = .named "pong" then pong else maze) }
  let world : Surroundings := { polled := .ok [], answered := 2 }
  let first := (started.select (.named "maze")).1
  let second := (first.select (.named "pong")).1
  let asked := started.selectDeeds (.named "maze") ++ first.selectDeeds (.named "pong")
  have run : Run started second asked := (Run.start.select (.named "maze")).select (.named "pong")
  obtain ⟨-, -, settles, isOk⟩ := last_selection_wins run
  obtain ⟨stepped, hstepped⟩ := isOk (by decide +kernel) answer world
  let check (stepped : Outcome ScriptedMachine RecordingDisplay Mute (Except ConsoleError Flow)) :=
    stepped.environment.loader.waiting.isEmpty && stepped.result.toOption == some .goOn
  have checked : (second.step answer world).toOption.any check = true := by decide +kernel
  have passed : check stepped = true :=
    (congrArg (fun stepped => stepped.toOption.any check) hstepped).symm.trans checked
  obtain ⟨hwaiting, hresult⟩ := Bool.and_eq_true_iff.mp passed
  have goes : stepped.result = .ok .goOn := by
    cases hflow : stepped.result with
    | error e =>
      rw [hflow] at hresult
      cases hresult
    | ok flow =>
      rw [hflow] at hresult
      rw [Option.some.inj (beq_iff_eq.mp hresult)]
  let since := second.stepDeeds answer world
  have inert : (since.all fun d => !d.supersedes) = true := by decide +kernel
  have hasked : LastSelected asked ⟨2⟩ (.named "pong") none [] :=
    ⟨⟨started.selectDeeds (.named "maze"), rfl⟩, List.forall_mem_nil _⟩
  have hlast : LastSelected (asked ++ since) ⟨2⟩ (.named "pong") none since :=
    hasked.append fun d hd => by simpa using List.all_eq_true.mp inert d hd
  obtain ⟨unawaited, settled⟩ :=
    settles answer world stepped hstepped goes (List.isEmpty_iff.mp hwaiting)
  obtain ⟨arrived, answered, accepted, -⟩ := settled ⟨2⟩ (.named "pong") none since hlast
  have told : answers (asked ++ since) =
      [(⟨1⟩, .named "maze", .ok maze), (⟨2⟩, .named "pong", .ok pong)] := by
    decide +kernel
  have came : arrived = .ok pong := by
    have hmem : (⟨2⟩, .named "pong", arrived) ∈ answers (asked ++ since) :=
      List.mem_filterMap.mpr ⟨_, answered, rfl⟩
    rw [told] at hmem
    simpa using hmem
  obtain ⟨s, hs, hname, delivered⟩ := accepted pong _ _ came rfl
  have activated : activations (asked ++ since) = [⟨2⟩] := by decide +kernel
  exact ⟨_, _, since, s, run.step answer world stepped hstepped, activated, hlast, unawaited, hs,
    hname, delivered⟩

end Environment

end Chip8Console
