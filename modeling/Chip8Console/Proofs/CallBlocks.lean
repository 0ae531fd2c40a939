import Chip8Console.Machine.Scripted
import Chip8Console.Proofs.SessionMoves
import Chip8Console.Screen.Recording

/-!
The calls that scripted machines receive over a run. They come in blocks, one for each session, and a
block is never taken up again once its session is over.
-/
namespace Chip8Console

/-- What a session asks of its machine once the program is loaded: to take note of a key, or to run
the cycles of a tick and then its timers. -/
inductive CallBlock.Item where
  | key (key : Key) (pressed : Bool)
  | tick
deriving DecidableEq

def CallBlock.Item.calls (cycles : Nat) : CallBlock.Item → List Call
  | key k pressed => [.setKey k pressed]
  | tick => List.replicate cycles .cycle ++ [.timers]

structure CallBlock where
  machine : Nat
  token : Token
  program : List UInt8
  items : List CallBlock.Item

namespace CallBlock

/-- The calls of a block: the program first, then the items. -/
def calls (cycles : Nat) (b : CallBlock) : CallLog :=
  (.load b.program :: b.items.flatMap (Item.calls cycles)).map fun call => (b.machine, call)

private theorem callsOn_map (machine other : Nat) (calls : List Call) :
    CallLog.callsOn (calls.map fun call => (machine, call)) other =
      if machine = other then calls else [] := by
  induction calls with
  | nil => simp [CallLog.callsOn]
  | cons call calls ih =>
    simp only [CallLog.callsOn, List.map_cons, List.filter_cons, beq_iff_eq] at ih ⊢
    by_cases h : machine = other <;> simp_all

private theorem callsOn_calls (cycles : Nat) (b : CallBlock) (machine : Nat) (h : b.machine ≠ machine) :
    CallLog.callsOn (b.calls cycles) machine = [] := by
  rw [calls, callsOn_map, if_neg h]

private theorem count_timers (cycles : Nat) (items : List Item) :
    (items.flatMap (Item.calls cycles)).count .timers = items.count .tick := by
  induction items with
  | nil => rfl
  | cons item items ih =>
    rw [List.flatMap_cons, List.count_append, ih, List.count_cons]
    cases item with
    | key k pressed => simp [Item.calls]
    | tick => simp [Item.calls, List.count_replicate, Nat.add_comm]

/-- The timers of a block are counted down once for each of its ticks. -/
theorem timerTicks_calls (cycles : Nat) (b : CallBlock) :
    CallLog.timerTicks (b.calls cycles) b.machine = b.items.count .tick := by
  rw [CallLog.timerTicks, calls, callsOn_map, if_pos rfl, List.count_cons, count_timers]
  simp

def ask (b : CallBlock) (item : Item) : CallBlock := { b with items := b.items ++ [item] }

private theorem calls_ask (cycles : Nat) (b : CallBlock) (item : Item) :
    (b.ask item).calls cycles =
      b.calls cycles ++ (item.calls cycles).map fun call => (b.machine, call) := by
  simp [calls, ask]

end CallBlock

namespace ScriptedMachine
variable {D S : Type} [Display D] [Sound S]

private theorem runBatch_calls (machine : ScriptedMachine) (bytes : List UInt8) :
    (Machine.runBatch machine bytes).machine.id = machine.id ∧
      (Machine.runBatch machine bytes).journal.calls =
        List.replicate bytes.length (machine.id, .cycle) := by
  induction bytes generalizing machine with
  | nil => exact ⟨rfl, rfl⟩
  | cons byte bytes ih =>
    obtain ⟨hid, hcalls⟩ := ih { machine with cycles := machine.cycles + 1 }
    refine ⟨hid, ?_⟩
    change Journal.calls ([.call machine.id .cycle] ++ _) = _
    rw [Journal.calls_append, hcalls]
    rfl

/-- A tick of a scripted machine shows as one item of its block. -/
theorem tick_item {s : Scheduler} {machine : ScriptedMachine} {sinks : Sinks D S} {dice : Dice}
    {ticked : Scheduler.Ticked ScriptedMachine D S} (h : s.tick machine sinks dice = .ok ticked) :
    ticked.machine.id = machine.id ∧
      ticked.journal.calls =
        (CallBlock.Item.tick.calls s.cyclesPerTick).map fun call => (machine.id, call) := by
  obtain ⟨hid, hcalls⟩ := runBatch_calls machine (dice.first s.cyclesPerTick)
  constructor
  · rw [Scheduler.tick_machine h]
    exact hid
  · rw [Scheduler.tick_calls h, hcalls]
    change _ ++ [((Machine.runBatch machine (dice.first s.cyclesPerTick)).machine.id, Call.timers)] = _
    rw [hid]
    simp [CallBlock.Item.calls, Dice.first]

private theorem load_eq_ok_iff {machine after : ScriptedMachine} {program : List UInt8} {told : Journal} :
    Machine.load machine program = .ok (after, told) ↔
      machine.refusesPrograms = false ∧ after = machine ∧ told = [.call machine.id (.load program)] := by
  cases h : machine.refusesPrograms with
  | true => simp [Machine.load, h]
  | false => simp [Machine.load, h, eq_comm]

end ScriptedMachine

namespace SessionManager
variable {R D S : Type} [RefreshHost R] [Display D] [Sound S]

/-- What holds throughout a run: the calls so far come in `blocks`, and the session that runs, if one
does, is that of the last block. -/
structure InBlocks (m : SessionManager ScriptedMachine) (events : List Event) (calls : CallLog)
    (blocks : List CallBlock) : Prop where
  calls : calls = blocks.flatMap (CallBlock.calls (max m.settings.cyclesPerTick 1))
  activated : blocks.map (fun b => (b.token, b.program)) = events.filterMap Event.activation
  ascending : (blocks.map CallBlock.machine).Pairwise (· < ·)
  built : ∀ b ∈ blocks, b.machine ≤ m.built
  accepting : ∀ b ∈ blocks, (m.factory b.machine).refusesPrograms = false
  distinct : (blocks.map CallBlock.token).Nodup
  issued : ∀ b ∈ blocks, b.token.number ≤ m.tokens.issued
  unissued : ∀ token : Token, m.tokens.issued < token.number → events.countP (Event.ran token) = 0
  ticks : ∀ b ∈ blocks, b.items.count .tick = events.countP (Event.ran b.token)
  live : ∀ s, m.session = some s →
    ∃ before last, blocks = before ++ [last] ∧ last.token = s.token ∧ last.machine = s.machine.id

private theorem InBlocks.start (factory : Nat → ScriptedMachine) (settings : SchedulerSettings)
    (keys : KeyTable) : InBlocks (new factory settings keys) [] [] [] := by
  constructor <;> simp [new]

private theorem InBlocks.quiet {m m' : SessionManager ScriptedMachine} {events : List Event}
    {calls : CallLog} {blocks : List CallBlock} (h : InBlocks m events calls blocks) (e : Event)
    (fixed : m'.factory = m.factory ∧ m'.settings = m.settings ∧ m.built ≤ m'.built)
    (tokens : m'.tokens.issued = m.tokens.issued)
    (session : ∀ s, m'.session = some s → m.session = some s)
    (activation : e.activation = none) (ran : ∀ token, e.ran token = false) :
    InBlocks m' (events ++ [e]) calls blocks := by
  obtain ⟨hfactory, hsettings, hbuilt⟩ := fixed
  have hcount (token : Token) : (events ++ [e]).countP (Event.ran token) =
      events.countP (Event.ran token) := by
    rw [List.countP_append, List.countP_singleton, ran]
    rfl
  constructor
  · rw [hsettings]
    exact h.calls
  · rw [h.activated, List.filterMap_append]
    simp [activation]
  · exact h.ascending
  · exact fun b hb => Nat.le_trans (h.built b hb) hbuilt
  · rw [hfactory]
    exact h.accepting
  · exact h.distinct
  · rw [tokens]
    exact h.issued
  · intro token ht
    rw [hcount]
    exact h.unissued token (tokens ▸ ht)
  · intro b hb
    rw [hcount]
    exact h.ticks b hb
  · exact fun s hs => h.live s (session s hs)

private theorem InBlocks.ask {m : SessionManager ScriptedMachine} {events : List Event}
    {calls : CallLog} {blocks : List CallBlock} (h : InBlocks m events calls blocks) (e : Event)
    (item : CallBlock.Item) (keys : KeyTable) (s s' : Session ScriptedMachine)
    (running : m.session = some s) (token : s'.token = s.token)
    (machine : s'.machine.id = s.machine.id)
    (activation : e.activation = none)
    (ran : ∀ token, e.ran token = true ↔ item = .tick ∧ token = s.token) :
    ∃ blocks', InBlocks { m with keys, session := some s' } (events ++ [e])
      (calls ++ (item.calls (max m.settings.cyclesPerTick 1)).map fun call => (s.machine.id, call))
      blocks' := by
  obtain ⟨before, last, hblocks, htoken, hmachine⟩ := h.live s running
  have hcount (token : Token) : (events ++ [e]).countP (Event.ran token) =
      events.countP (Event.ran token) + if item = .tick ∧ token = s.token then 1 else 0 := by
    simp only [List.countP_append, List.countP_singleton, ran]
  subst hblocks
  refine ⟨before ++ [last.ask item], ?_, ?_, ?_, ?_, ?_, ?_, ?_, ?_, ?_, ?_⟩
  · rw [h.calls, ← hmachine]
    simp [CallBlock.calls_ask]
  · rw [List.filterMap_append, ← h.activated]
    simp [activation, CallBlock.ask]
  · simpa [CallBlock.ask] using h.ascending
  · simpa [CallBlock.ask, or_imp, forall_and] using h.built
  · simpa [CallBlock.ask, or_imp, forall_and] using h.accepting
  · simpa [CallBlock.ask] using h.distinct
  · simpa [CallBlock.ask, or_imp, forall_and] using h.issued
  · intro token ht
    have hne : token ≠ s.token := by
      rintro rfl
      have := h.issued last (by simp)
      rw [htoken] at this
      exact absurd ht (Nat.not_lt.mpr this)
    rw [hcount, h.unissued token ht, if_neg (fun hh => hne hh.2)]
  · intro b hb
    rcases List.mem_append.mp hb with hb | hb
    · have hne : b.token ≠ s.token := by
        rw [← htoken]
        have hd := h.distinct
        rw [List.map_append, List.nodup_append] at hd
        exact hd.2.2 _ (List.mem_map_of_mem hb) _ (by simp)
      rw [hcount, h.ticks b (by simp [hb]), if_neg (fun hh => hne hh.2)]
      rfl
    · obtain rfl := List.mem_singleton.mp hb
      have hticks := h.ticks last (by simp)
      rw [hcount, show (last.ask item).token = last.token from rfl, ← hticks, htoken]
      simp [CallBlock.ask, List.count_singleton]
  · intro t ht
    cases ht
    exact ⟨before, last.ask item, rfl, htoken.trans token.symm, hmachine.trans machine.symm⟩

private theorem InBlocks.tick {m : SessionManager ScriptedMachine} {events : List Event}
    {calls : CallLog} {blocks : List CallBlock} (h : InBlocks m events calls blocks)
    (configured : m.Configured) (s : Session ScriptedMachine) (sinks : Sinks D S) (dice : Dice)
    (ticked : Scheduler.Ticked ScriptedMachine D S) (pending : Option TickHandle)
    (result : Except ConsoleError TickStatus) (running : m.session = some s)
    (hticked : s.scheduler.tick s.machine sinks dice = .ok ticked)
    (fresh : result ≠ .ok .stale) :
    ∃ blocks', InBlocks (m.advanced s ticked pending) (events ++ [.ticked s.token result])
      (calls ++ ticked.journal.calls) blocks' := by
  obtain ⟨hid, hcalls⟩ := ScriptedMachine.tick_item hticked
  rw [hcalls, (configured s running).1]
  refine h.ask _ .tick m.keys s _ running rfl hid rfl ?_
  intro token
  rw [Event.ran_ticked_iff fresh]
  exact (and_iff_right rfl).symm

private theorem InBlocks.begin {m : SessionManager ScriptedMachine} {events : List Event}
    {calls : CallLog} {blocks : List CallBlock} (h : InBlocks m events calls blocks)
    (ticket : LoadTicket) (rom : Rom) (handle : TickHandle)
    (numbered : (m.factory (m.built + 1)).id = m.built + 1)
    (accepts : (m.factory (m.built + 1)).refusesPrograms = false) :
    ∃ blocks', InBlocks (m.begun (m.factory (m.built + 1)) rom handle)
      (events ++ [.completed ticket (.ok rom) (.ok (some m.tokens.activate.1))])
      (calls ++ [(m.built + 1, .load rom.bytes)]) blocks' := by
  have hissued : m.tokens.activate.1.number = m.tokens.issued + 1 := rfl
  have hfresh (b : CallBlock) (hb : b ∈ blocks) : b.token ≠ m.tokens.activate.1 := by
    intro hh
    have := h.issued b hb
    rw [hh, hissued] at this
    omega
  have hcount (token : Token) :
      (events ++ [Event.completed ticket (.ok rom) (.ok (some m.tokens.activate.1))]).countP
        (Event.ran token) = events.countP (Event.ran token) := by
    simp [Event.ran]
  let opened : CallBlock := ⟨m.built + 1, m.tokens.activate.1, rom.bytes, []⟩
  refine ⟨blocks ++ [opened], ?_, ?_, ?_, ?_, ?_, ?_, ?_, ?_, ?_, ?_⟩
  · rw [h.calls]
    simp [CallBlock.calls, opened, begun]
  · rw [List.filterMap_append, ← h.activated]
    simp [Event.activation, opened]
  · rw [List.map_append, List.pairwise_append]
    refine ⟨h.ascending, by simp, ?_⟩
    intro k hk l hl
    obtain ⟨b, hb, rfl⟩ := List.mem_map.mp hk
    obtain rfl := List.mem_singleton.mp hl
    exact Nat.lt_succ_of_le (h.built b hb)
  · intro b hb
    rcases List.mem_append.mp hb with hb | hb
    · exact Nat.le_succ_of_le (h.built b hb)
    · obtain rfl := List.mem_singleton.mp hb
      exact Nat.le_refl _
  · intro b hb
    rcases List.mem_append.mp hb with hb | hb
    · exact h.accepting b hb
    · obtain rfl := List.mem_singleton.mp hb
      exact accepts
  · rw [List.map_append, List.nodup_append]
    refine ⟨h.distinct, by simp, ?_⟩
    intro token ht other hother
    obtain ⟨b, hb, rfl⟩ := List.mem_map.mp ht
    obtain rfl := List.mem_singleton.mp hother
    exact hfresh b hb
  · intro b hb
    rcases List.mem_append.mp hb with hb | hb
    · exact Nat.le_succ_of_le (h.issued b hb)
    · obtain rfl := List.mem_singleton.mp hb
      exact Nat.le_refl _
  · intro token ht
    rw [hcount]
    exact h.unissued token (Nat.lt_trans (Nat.lt_succ_self _) ht)
  · intro b hb
    rw [hcount]
    rcases List.mem_append.mp hb with hb | hb
    · exact h.ticks b hb
    · obtain rfl := List.mem_singleton.mp hb
      exact (h.unissued _ (Nat.lt_succ_self _)).symm
  · intro s hs
    cases hs
    exact ⟨blocks, opened, rfl, rfl, numbered.symm⟩

private theorem InBlocks.step {m m' : SessionManager ScriptedMachine} {refresh refresh' : R}
    {events : List Event} {calls : CallLog} {blocks : List CallBlock} {e : Event} {told : Journal}
    (h : InBlocks m events calls blocks) (configured : m.Configured)
    (numbered : ∀ k, (m.factory k).id = k) (step : Step D S m refresh e told m' refresh') :
    ∃ blocks', InBlocks m' (events ++ [e]) (calls ++ told.calls) blocks' := by
  have fixed := step.fixed
  cases step with
  | beginLoad =>
    rw [Journal.calls_nil, List.append_nil]
    exact ⟨blocks, h.quiet _ fixed rfl (fun s hs => hs) rfl (fun _ => rfl)⟩
  | completeLoad ticket arrived done hdone =>
    cases completeLoad_completion hdone with
    | superseded unwanted =>
      rw [Journal.calls_ofNotices, List.append_nil]
      refine ⟨blocks, h.quiet _ fixed rfl (fun s hs => hs) ?_ (fun _ => rfl)⟩
      cases arrived <;> rfl
    | missing e wanted failed =>
      subst failed
      rw [Journal.calls_nil, List.append_nil]
      exact ⟨blocks, h.quiet _ fixed rfl (fun s hs => hs) rfl (fun _ => rfl)⟩
    | refused rom e wanted came refusal =>
      subst came
      rw [Journal.calls_nil, List.append_nil]
      exact ⟨blocks, h.quiet _ fixed rfl (fun s hs => hs) rfl (fun _ => rfl)⟩
    | activated rom machine loaded notices wanted came taken =>
      subst came
      obtain ⟨accepts, rfl, rfl⟩ := ScriptedMachine.load_eq_ok_iff.mp taken
      obtain ⟨blocks', h'⟩ := h.begin ticket rom
        (RefreshHost.request (m.retire refresh).1 m.tokens.activate.1).1 (numbered _) accepts
      refine ⟨blocks', ?_⟩
      rw [Journal.calls_append, Journal.calls_ofNotices, List.append_nil, numbered]
      exact h'
  | onTick token sinks dice delivered hdelivered =>
    cases onTick_delivery hdelivered with
    | stale dead =>
      rw [Journal.calls_ofNotices, List.append_nil]
      exact ⟨blocks, h.quiet _ fixed rfl (fun s hs => hs) rfl (fun _ => rfl)⟩
    | failed s ticked e live hticked result =>
      obtain ⟨running, -, rfl⟩ := live?_eq_some_iff.mp live
      exact h.tick configured s sinks dice ticked _ _ running hticked nofun
    | ran s ticked outcome live hticked result =>
      obtain ⟨running, -, rfl⟩ := live?_eq_some_iff.mp live
      exact h.tick configured s sinks dice ticked _ _ running hticked nofun
  | keyEvent c pressed after hafter =>
    cases keyEvent_keying hafter with
    | kept unchanged =>
      rw [Journal.calls_nil, List.append_nil]
      exact ⟨blocks, h.quiet _ fixed rfl (fun s hs => hs) rfl (fun _ => rfl)⟩
    | forwarded key s changed running =>
      exact h.ask _ (.key key pressed) _ s _ running rfl rfl rfl (fun _ => by simp [Event.ran])
  | teardown =>
    rw [Journal.calls_ofNotices, List.append_nil]
    exact ⟨blocks, h.quiet _ fixed rfl (fun s hs => nomatch hs) rfl (fun _ => rfl)⟩

private theorem InBlocks.run {factory : Nat → ScriptedMachine} {settings : SchedulerSettings}
    {keys : KeyTable} {m : SessionManager ScriptedMachine} {events : List Event} {journal : Journal}
    (numbered : ∀ k, (factory k).id = k)
    (run : Run R D S (new factory settings keys) m events journal) :
    ∃ blocks, InBlocks m events journal.calls blocks := by
  induction run with
  | start => exact ⟨[], .start factory settings keys⟩
  | step run step ih =>
    obtain ⟨blocks, h⟩ := ih
    have configured := run.configured (configured_new factory settings keys)
    rw [Journal.calls_append]
    exact h.step configured (by rw [run.fixed.1]; exact numbered) step

/-- Machine `k` was built and is not the one that runs. -/
def Retired (m : SessionManager ScriptedMachine) (k : Nat) : Prop :=
  k ≤ m.built ∧ ∀ s, m.session = some s → s.machine.id ≠ k

private theorem Retired.advanced {m : SessionManager ScriptedMachine} {k : Nat} (h : m.Retired k)
    {token : Token} {s : Session ScriptedMachine} {sinks : Sinks D S} {dice : Dice}
    {ticked : Scheduler.Ticked ScriptedMachine D S} (live : m.live? token = some s)
    (hticked : s.scheduler.tick s.machine sinks dice = .ok ticked) (pending : Option TickHandle) :
    (m.advanced s ticked pending).Retired k ∧ ticked.journal.calls.callsOn k = [] := by
  have hne := h.2 s (live?_eq_some_iff.mp live).1
  obtain ⟨hid, hcalls⟩ := ScriptedMachine.tick_item hticked
  refine ⟨⟨h.1, ?_⟩, ?_⟩
  · intro t ht
    cases ht
    rw [hid]
    exact hne
  · rw [hcalls, CallBlock.callsOn_map, if_neg hne]

private theorem Retired.step {m m' : SessionManager ScriptedMachine} {k : Nat} {refresh refresh' : R}
    {e : Event} {told : Journal} (h : m.Retired k) (numbered : ∀ k, (m.factory k).id = k)
    (step : Step D S m refresh e told m' refresh') : m'.Retired k ∧ told.calls.callsOn k = [] := by
  cases step with
  | beginLoad => exact ⟨h, rfl⟩
  | completeLoad ticket arrived done hdone =>
    cases completeLoad_completion hdone with
    | superseded => exact ⟨h, rfl⟩
    | missing => exact ⟨h, rfl⟩
    | refused => exact ⟨⟨Nat.le_succ_of_le h.1, h.2⟩, rfl⟩
    | activated rom machine loaded notices wanted came taken =>
      obtain ⟨-, rfl, rfl⟩ := ScriptedMachine.load_eq_ok_iff.mp taken
      have hne : m.built + 1 ≠ k := by
        have := h.1
        omega
      refine ⟨⟨Nat.le_succ_of_le h.1, ?_⟩, ?_⟩
      · intro s hs
        cases hs
        rw [numbered]
        exact hne
      · rw [Journal.calls_append, Journal.calls_ofNotices, List.append_nil, numbered]
        exact CallBlock.callsOn_map (m.built + 1) k [.load rom.bytes] ▸ if_neg hne
  | onTick token sinks dice delivered hdelivered =>
    cases onTick_delivery hdelivered with
    | stale => exact ⟨h, by rw [Journal.calls_ofNotices]; rfl⟩
    | failed s ticked e live hticked => exact h.advanced live hticked _
    | ran s ticked outcome live hticked => exact h.advanced live hticked _
  | keyEvent c pressed after hafter =>
    cases keyEvent_keying hafter with
    | kept => exact ⟨h, rfl⟩
    | forwarded key s changed running =>
      have hne := h.2 s running
      refine ⟨⟨h.1, ?_⟩, CallBlock.callsOn_map s.machine.id k [.setKey key pressed] ▸ if_neg hne⟩
      intro t ht
      cases ht
      exact hne
  | teardown => exact ⟨⟨h.1, fun s hs => nomatch hs⟩, by rw [Journal.calls_ofNotices]; rfl⟩

private theorem Retired.run {m m' : SessionManager ScriptedMachine} {k : Nat} {events : List Event}
    {journal : Journal} (h : m.Retired k) (numbered : ∀ k, (m.factory k).id = k)
    (run : Run R D S m m' events journal) :
    m'.Retired k ∧ journal.calls.callsOn k = [] := by
  induction run with
  | start => exact ⟨h, rfl⟩
  | step run step ih =>
    obtain ⟨hretired, hcalls⟩ := ih
    obtain ⟨hretired', htold⟩ := hretired.step (by rw [run.fixed.1]; exact numbered) step
    refine ⟨hretired', ?_⟩
    rw [Journal.calls_append, CallLog.callsOn, List.filter_append, List.map_append]
    exact List.append_eq_nil_iff.mpr ⟨hcalls, htold⟩

private theorem callsOn_blocks {cycles k : Nat} {blocks : List CallBlock}
    (h : ∀ b ∈ blocks, b.machine ≠ k) :
    CallLog.callsOn (blocks.flatMap (CallBlock.calls cycles)) k = [] := by
  induction blocks with
  | nil => rfl
  | cons b blocks ih =>
    rw [List.flatMap_cons, CallLog.callsOn, List.filter_append, List.map_append]
    exact List.append_eq_nil_iff.mpr ⟨b.callsOn_calls cycles k (h b List.mem_cons_self),
      ih fun c hc => h c (List.mem_cons_of_mem b hc)⟩

private theorem session_of_tornDown {m₀ m : SessionManager ScriptedMachine} {events : List Event}
    {journal : Journal} (run : Run R D S m₀ m (events ++ [.tornDown]) journal) : m.session = none := by
  generalize happened : events ++ [Event.tornDown] = all at run
  cases run with
  | start => cases List.append_eq_nil_iff.mp happened |>.2
  | step run step =>
    obtain ⟨-, rfl⟩ := List.append_inj' happened rfl |>.imp_right List.singleton_inj.mp
    cases step with
    | teardown => rfl

/-- Over every run of scripted machines the calls come in blocks, one for each session, in the order in
which the sessions began and with ascending machines. A block starts with the program; after it come
key changes and whole ticks, as many ticks as were delivered to the session and not found stale. The
running session is that of the last block. A machine that refuses its program is never called. Nor is,
whatever comes later, one whose session was replaced; and once a session is torn down none runs, and no
machine built so far is called again. While the blocks of the picture have words for corners, no tick
ends in a fault. -/
theorem calls_in_blocks {factory : Nat → ScriptedMachine} {settings : SchedulerSettings}
    {keys : KeyTable} {m : SessionManager ScriptedMachine} {events : List Event} {journal : Journal}
    (numbered : ∀ k, (factory k).id = k)
    (run : Run R D S (new factory settings keys) m events journal) :
    (∃ blocks : List CallBlock,
      journal.calls = blocks.flatMap (CallBlock.calls (max settings.cyclesPerTick 1)) ∧
      blocks.map (fun b => (b.token, b.program)) = events.filterMap Event.activation ∧
      (blocks.map CallBlock.machine).Pairwise (· < ·) ∧
      (∀ b ∈ blocks, b.machine ≤ m.built) ∧
      (∀ b ∈ blocks, CallLog.timerTicks (b.calls (max settings.cyclesPerTick 1)) b.machine =
        events.countP (Event.ran b.token)) ∧
      ∀ s, m.session = some s →
        ∃ last, blocks.getLast? = some last ∧ last.token = s.token ∧ last.machine = s.machine.id) ∧
    (∀ k, (factory k).refusesPrograms = true → journal.calls.callsOn k = []) ∧
    (∀ m' later told, Run R D S m m' later told →
      ∀ k ≤ m.built, (∀ s, m.session = some s → s.machine.id ≠ k) → told.calls.callsOn k = []) ∧
    (∀ earlier, events = earlier ++ [.tornDown] → m.session = none ∧
      ∀ m' later told, Run R D S m m' later told → ∀ k ≤ m.built, told.calls.callsOn k = []) ∧
    ((Frame.width - 1) * max settings.scale 1 < Word.limit →
      ∀ (token : Token) (refresh : R) (sinks : Sinks D S) (dice : Dice),
        ∃ delivered, m.onTick token refresh sinks dice = .ok delivered) := by
  obtain ⟨hfactory, hsettings⟩ : m.factory = factory ∧ m.settings = settings := run.fixed
  have configured : m.Configured := run.configured (configured_new factory settings keys)
  obtain ⟨blocks, h⟩ := InBlocks.run numbered run
  have uncalled (k : Nat) (built : k ≤ m.built) (dead : ∀ s, m.session = some s → s.machine.id ≠ k)
      (m' : SessionManager ScriptedMachine) (later : List Event) (told : Journal)
      (run' : Run R D S m m' later told) : told.calls.callsOn k = [] :=
    (Retired.run ⟨built, dead⟩ (by rw [hfactory]; exact numbered) run').2
  refine ⟨⟨blocks, ?_, h.activated, h.ascending, h.built, ?_, ?_⟩, ?_, ?_, ?_, ?_⟩
  · rw [h.calls, hsettings]
  · intro b hb
    rw [CallBlock.timerTicks_calls, h.ticks b hb]
  · intro s hs
    obtain ⟨before, last, rfl, htoken, hmachine⟩ := h.live s hs
    exact ⟨last, List.getLast?_concat, htoken, hmachine⟩
  · intro k hk
    rw [h.calls]
    refine callsOn_blocks fun b hb hbk => ?_
    have := h.accepting b hb
    rw [hfactory, hbk, hk] at this
    cases this
  · intro m' later told run' k hk hdead
    exact uncalled k hk hdead m' later told run'
  · rintro earlier rfl
    have gone := session_of_tornDown run
    refine ⟨gone, fun m' later told run' k hk => uncalled k hk (fun s hs => ?_) m' later told run'⟩
    cases gone.symm.trans hs
  · intro fits token refresh sinks dice
    exact configured.onTick_isOk (by rw [hsettings]; exact fits) token refresh sinks dice

/-- Two sessions, a refused program between them, a late tick of the first in the second, and the end of
both. -/
theorem calls_in_blocks_of_swap :
    let factory : Nat → ScriptedMachine := fun k => { id := k, refusesPrograms := k == 2 }
    (∀ k, (factory k).id = k) ∧
    ∃ m events journal,
      Run RefreshQueue RecordingDisplay Mute (new factory { cyclesPerTick := 3 }) m events journal ∧
      events.countP (Event.ran ⟨1⟩) = 0 ∧ events.countP (Event.ran ⟨2⟩) = 1 ∧
      (∃ earlier, events = earlier ++ [.tornDown]) ∧ m.session = none ∧
      (∀ m' later told, Run RefreshQueue RecordingDisplay Mute m m' later told →
        told.calls.callsOn 1 = [] ∧ told.calls.callsOn 3 = []) ∧
      ∃ blocks : List CallBlock, journal.calls = blocks.flatMap (CallBlock.calls 3) ∧
        blocks.map (fun b => (b.token, b.program)) = [(⟨1⟩, [0x12, 0x00]), (⟨2⟩, [0xA2, 0x1E])] ∧
        (∀ b ∈ blocks,
          CallLog.timerTicks (b.calls 3) b.machine = events.countP (Event.ran b.token)) ∧
        journal.calls.callsOn 2 = [] := by
  intro factory
  have numbered (k : Nat) : (factory k).id = k := rfl
  let load (m : SessionManager ScriptedMachine) (rom : Rom) : Completed ScriptedMachine RefreshQueue :=
    m.beginLoad.2.completeLoad m.beginLoad.1 (.ok rom) {}
  let started : SessionManager ScriptedMachine := new factory { cyclesPerTick := 3 }
  have swap (m : SessionManager ScriptedMachine) (events : List Event) (journal : Journal)
      (run : Run RefreshQueue RecordingDisplay Mute started m events journal) (rom : Rom) :
      Run RefreshQueue RecordingDisplay Mute started (load m rom).manager _ _ :=
    (run.step (Step.beginLoad : Step RecordingDisplay Mute m ({} : RefreshQueue) _ _ _ _)).step
      (.completeLoad _ _ (load m rom) rfl)
  have first := swap _ _ _ .start ⟨"maze", [0x12, 0x00], none⟩
  have second := swap _ _ _ first ⟨"huge", [0x00], none⟩
  have third := swap _ _ _ second ⟨"pong", [0xA2, 0x1E], none⟩
  let sinks : Sinks RecordingDisplay Mute := ⟨{}, .mute⟩
  let dice : Dice := fun _ => 0
  have late := third.step (.onTick ⟨1⟩ sinks dice ⟨_, ({} : RefreshQueue), sinks, _, _⟩ rfl)
  obtain ⟨delivered, hdelivered⟩ := (calls_in_blocks numbered late).2.2.2.2
    (by decide +kernel) ⟨2⟩ ({} : RefreshQueue) sinks dice
  have fresh : delivered.result ≠ .ok .stale := by
    cases onTick_delivery hdelivered with
    | stale dead => cases dead
    | failed => nofun
    | ran => nofun
  have ran := late.step (.onTick ⟨2⟩ sinks dice delivered hdelivered)
  have run := ran.step (.teardown : Step RecordingDisplay Mute delivered.manager ({} : RefreshQueue) _ _ _ _)
  have built : 3 ≤ delivered.manager.built :=
    (Step.onTick ⟨2⟩ sinks dice delivered hdelivered).fixed.2.2
  obtain ⟨⟨blocks, hcalls, hactivated, -, -, hticks, -⟩, hrefused, -, ended, -⟩ :=
    calls_in_blocks numbered run
  obtain ⟨gone, silent⟩ := ended _ rfl
  have hran (token : Token) : (Event.ticked ⟨2⟩ delivered.result).ran token = true ↔ token = ⟨2⟩ :=
    Event.ran_ticked_iff fresh
  refine ⟨numbered, _, _, _, run, ?_, ?_, ⟨_, rfl⟩, gone, fun m' later told run' => ?_, blocks, hcalls,
    hactivated, hticks, hrefused 2 rfl⟩
  · rw [List.countP_append, List.countP_append, List.countP_singleton, if_neg (by simp [hran])]
    rfl
  · rw [List.countP_append, List.countP_append, List.countP_singleton, if_pos ((hran _).mpr rfl)]
    rfl
  · exact ⟨silent m' later told run' 1 (Nat.le_trans (by decide) built),
      silent m' later told run' 3 built⟩

end SessionManager

end Chip8Console
