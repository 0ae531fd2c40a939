import Chip8Console.Proofs.GrowingLog
import Chip8Console.Sound.Silencer

/-!
The stopping thread and its channel, on their own. Moments are sent to it in any order and at any time, and
time goes by. What it receives and when it silences the speaker is told in a log, and the log says that each
burst of tones is silenced once.
-/
namespace Chip8Console.Silencer

/-- What happens to the thread and its channel. -/
inductive Event where
  | sent (stop : Moment)
  | closed
  | passed (milliseconds : Nat)
  | received (stop : Moment)
  /-- the thread is done waiting for the moment held; `unseen` was sent since it last looked -/
  | timedOut (unseen : List Moment)
  /-- the thread took note that nothing more can arrive -/
  | noted
  | silenced
deriving DecidableEq, Repr

namespace Event

def sent? : Event → Option Moment
  | sent stop => some stop
  | _ => none

def received? : Event → Option Moment
  | received stop => some stop
  | _ => none

def isAct : Event → Bool
  | received _ | silenced => true
  | _ => false

def isOfThread : Event → Bool
  | received _ | timedOut _ | noted | silenced => true
  | sent _ | closed | passed _ => false

/-- A wait does not end at its moment while something is queued. -/
def Prompt : Event → Prop
  | timedOut unseen => unseen = []
  | _ => True

end Event

def acts (log : List Event) : List Event := log.filter Event.isAct

/-- What can happen next. Nothing is sent once the channel is closed. -/
inductive Step (s : Silencer) (now : Moment) : Event → Silencer → Moment → Prop
  | sent (stop : Moment) (opened : s.closed = false) : Step s now (.sent stop) (s.send stop) now
  | closed (opened : s.closed = false) : Step s now .closed s.close now
  | passed (milliseconds : Nat) : Step s now (.passed milliseconds) s (now + milliseconds)
  | received {after : Silencer} {stop : Moment} (h : s.wake? now .received = some after)
      (holds : after.held = some stop) : Step s now (.received stop) after now
  | timedOut {after : Silencer} (h : s.wake? now .timedOut = some after) :
      Step s now (.timedOut s.queue) after now
  | noted {after : Silencer} (h : s.wake? now .channelClosed = some after) : Step s now .noted after now
  | silenced {after : Silencer} (h : s.silence? = some after) : Step s now .silenced after now

/-- A run of the thread, with all that happens. -/
inductive Run (s₀ : Silencer) (start : Moment) : List Event → Silencer → Moment → Prop
  | start : Run s₀ start [] s₀ start
  | step {log : List Event} {e : Event} {s after : Silencer} {now later : Moment}
      (run : Run s₀ start log s now) (h : Step s now e after later) :
      Run s₀ start (log ++ [e]) after later

/-- What became of a moment that was received, by what was received and silenced since and by what is held
in the end. -/
inductive Fate (stop : Moment) : List Event → Option Moment → Prop
  | held : Fate stop [] (some stop)
  | replaced (next : Moment) (rest : List Event) (held : Option Moment) :
      Fate stop (.received next :: rest) held
  | silenced : Fate stop [.silenced] none
  | silencedBefore (next : Moment) (rest : List Event) (held : Option Moment) :
      Fate stop (.silenced :: .received next :: rest) held

/-- What the thread does in a wait once nothing more is sent: it receives all that is queued, and if it then
holds a moment it silences the speaker. -/
def drained (queue : List Moment) (held : Option Moment) : List Event :=
  queue.map .received ++ if queue = [] ∧ held = none then [] else [.silenced]

/-- What the thread is yet to do once nothing more is sent. A silence that it was about to make comes
first. -/
def remaining (s : Silencer) : List Event :=
  match s.phase with
  | .waiting => drained s.queue s.held
  | .silencing false => .silenced :: drained s.queue none
  | .silencing true => [.silenced]
  | .ended => []

def CanGoOn (s : Silencer) (now : Moment) : Prop :=
  ∃ e after, e.isOfThread = true ∧ e.Prompt ∧ Step s now e after now

variable {s₀ s after : Silencer} {start now later : Moment} {e : Event} {log made : List Event}
  {held : Option Moment} {stop : Moment}

/-- Moments that were received and silences, and what is held after them. A silence needs a moment that is
held, and leaves none. -/
inductive Bursts : List Event → Option Moment → Prop
  | start : Bursts [] none
  | received {made : List Event} {held : Option Moment} (bursts : Bursts made held) (stop : Moment) :
      Bursts (made ++ [.received stop]) (some stop)
  | silenced {made : List Event} {stop : Moment} (bursts : Bursts made (some stop)) :
      Bursts (made ++ [.silenced]) none

private theorem Bursts.getLast? (bursts : Bursts made (some stop)) :
    made.getLast? = some (.received stop) := by
  cases bursts with
  | received => exact List.getLast?_concat

private theorem Fate.received (fate : Fate stop made held) (next : Moment) :
    Fate stop (made ++ [.received next]) (some next) := by
  cases fate with
  | held => exact .replaced next [] _
  | replaced first rest => exact .replaced first _ _
  | silenced => exact .silencedBefore next [] _
  | silencedBefore first rest => exact .silencedBefore first _ _

private theorem Fate.silence (fate : Fate stop made (some later)) :
    Fate stop (made ++ [.silenced]) none := by
  cases fate with
  | held => exact .silenced
  | replaced first rest => exact .replaced first _ _
  | silencedBefore first rest => exact .silencedBefore first _ _

private theorem Bursts.fate (bursts : Bursts made held) {earlier rest : List Event}
    (split : made = earlier ++ .received stop :: rest) : Fate stop rest held := by
  induction bursts generalizing rest with
  | start => cases earlier <;> cases split
  | received bursts next ih =>
    obtain ⟨rest, rfl, before⟩ | ⟨rfl, -, same⟩ := append_eq_append_singleton split
    · exact (ih before).received next
    · cases same
      exact .held
  | silenced bursts ih =>
    obtain ⟨rest, rfl, before⟩ | ⟨rfl, -, same⟩ := append_eq_append_singleton split
    · exact (ih before).silence
    · cases same

private theorem acts_append (log more : List Event) : acts (log ++ more) = acts log ++ acts more :=
  List.filter_append ..

/-- What the phase of the thread tells: for what it is about to silence the speaker, and that nothing is left
in the end. -/
structure Poised (s : Silencer) (now : Moment) : Prop where
  due : s.phase = .silencing false → ∃ stop, s.held = some stop ∧ stop ≤ now
  last : s.phase = .silencing true → (∃ stop, s.held = some stop) ∧ s.closed = true ∧ s.queue = []
  ended : s.phase = .ended → s.closed = true ∧ s.queue = [] ∧ s.held = none

private theorem Poised.step (h : Poised s now) (step : Step s now e after later) : Poised after later := by
  cases step with
  | sent stop opened =>
    have shut : ¬ s.closed = true := Bool.eq_false_iff.mp opened
    exact { h with
      last := fun phase => absurd (h.last phase).2.1 shut
      ended := fun phase => absurd (h.ended phase).1 shut }
  | closed opened =>
    exact { h with
      last := fun phase => ⟨(h.last phase).1, rfl, (h.last phase).2.2⟩
      ended := fun phase => ⟨rfl, (h.ended phase).2⟩ }
  | passed milliseconds =>
    refine { h with due := fun phase => ?_ }
    obtain ⟨stop, holds, due⟩ := h.due phase
    exact ⟨stop, holds, Nat.le_add_right_of_le due⟩
  | received woke holds =>
    obtain ⟨waits, stop, rest, queued, rfl⟩ := receive?_eq_some_iff.mp woke
    have other {phase : Phase} (differs : Phase.waiting ≠ phase) : s.phase ≠ phase := waits ▸ differs
    exact {
      due := fun phase => absurd phase (other nofun)
      last := fun phase => absurd phase (other nofun)
      ended := fun phase => absurd phase (other nofun) }
  | timedOut woke =>
    obtain ⟨waits, due, rfl⟩ := timeOut?_eq_some_iff.mp woke
    exact { due := fun _ => due, last := nofun, ended := nofun }
  | noted woke =>
    obtain ⟨waits, empty, closed, rfl⟩ := noteClosed?_eq_some_iff.mp woke
    cases holds : s.held with
    | none => exact { due := nofun, last := nofun, ended := fun _ => ⟨closed, empty, rfl⟩ }
    | some stop => exact { due := nofun, last := fun _ => ⟨⟨stop, rfl⟩, closed, empty⟩, ended := nofun }
  | silenced silence =>
    obtain ⟨last, about, rfl⟩ := silence?_eq_some_iff.mp silence
    cases last with
    | false => exact { due := nofun, last := nofun, ended := nofun }
    | true =>
      obtain ⟨-, closed, empty⟩ := h.last about
      exact { due := nofun, last := nofun, ended := fun _ => ⟨closed, empty, rfl⟩ }

private theorem Poised.holds (h : Poised s now) {last : Bool} (about : s.phase = .silencing last) :
    ∃ stop, s.held = some stop ∧ (stop ≤ now ∨ s.closed = true ∧ s.queue = []) := by
  cases last with
  | false =>
    obtain ⟨stop, holds, due⟩ := h.due about
    exact ⟨stop, holds, .inl due⟩
  | true =>
    obtain ⟨⟨stop, holds⟩, closed⟩ := h.last about
    exact ⟨stop, holds, .inr closed⟩

private theorem Bursts.step (bursts : Bursts made s.held) (poised : Poised s now)
    (step : Step s now e after later) : Bursts (made ++ acts [e]) after.held := by
  have idle (quiet : acts [e] = []) : Bursts (made ++ acts [e]) s.held := by
    rw [quiet, List.append_nil]
    exact bursts
  cases step with
  | sent | closed | passed => exact idle rfl
  | @received _ stop woke holds =>
    rw [holds]
    exact bursts.received stop
  | timedOut woke =>
    obtain ⟨-, -, rfl⟩ := timeOut?_eq_some_iff.mp woke
    exact idle rfl
  | noted woke =>
    obtain ⟨-, -, -, rfl⟩ := noteClosed?_eq_some_iff.mp woke
    exact idle rfl
  | silenced silence =>
    obtain ⟨last, about, rfl⟩ := silence?_eq_some_iff.mp silence
    obtain ⟨stop, holds, -⟩ := poised.holds about
    rw [holds] at bursts
    exact bursts.silenced

/-- What is queued gains what is sent, at its end, and loses what is received, at its beginning. -/
theorem Step.queue (step : Step s now e after later) :
    s.queue ++ e.sent?.toList = e.received?.toList ++ after.queue := by
  cases step with
  | sent => rfl
  | closed | passed => exact List.append_nil _
  | @received _ stop woke holds =>
    obtain ⟨-, first, rest, queued, rfl⟩ := receive?_eq_some_iff.mp woke
    obtain rfl : first = stop := Option.some.inj holds
    exact (List.append_nil _).trans queued
  | timedOut woke =>
    obtain ⟨-, -, rfl⟩ := timeOut?_eq_some_iff.mp woke
    exact List.append_nil _
  | noted woke =>
    obtain ⟨-, -, -, rfl⟩ := noteClosed?_eq_some_iff.mp woke
    exact List.append_nil _
  | silenced silence =>
    obtain ⟨-, -, rfl⟩ := silence?_eq_some_iff.mp silence
    exact List.append_nil _

/-- What the log tells of the thread at every moment. -/
structure Followed (log : List Event) (s : Silencer) (now : Moment) : Prop where
  poised : Poised s now
  bursts : Bursts (acts log) s.held
  delivered : log.filterMap Event.sent? = log.filterMap Event.received? ++ s.queue

private theorem Followed.step (h : Followed log s now) (step : Step s now e after later) :
    Followed (log ++ [e]) after later := by
  have single (told : Event → Option Moment) : [e].filterMap told = (told e).toList := by
    cases h : told e <;> simp [h]
  refine ⟨h.poised.step step, ?bursts, ?delivered⟩
  case bursts =>
    rw [acts_append]
    exact h.bursts.step h.poised step
  case delivered =>
    rw [List.filterMap_append, List.filterMap_append, single, single, h.delivered, List.append_assoc,
      step.queue, List.append_assoc]

private theorem Run.followed (run : Run {} start log s now) : Followed log s now := by
  induction run with
  | start => exact ⟨⟨nofun, nofun, nofun⟩, .start, rfl⟩
  | step run h ih => exact ih.step h

/-- A bound on what is left to do for the thread once nothing more is sent. -/
def work (s : Silencer) : Nat :=
  -- the end of a wait leaves what remains as it is, and an act may begin another wait
  2 * s.remaining.length + if s.phase = .waiting then 1 else 0

private theorem drained_cons (stop : Moment) (rest : List Moment) (held : Option Moment) :
    drained (stop :: rest) held = .received stop :: drained rest (some stop) := by
  simp [drained]

private theorem Step.strips (step : Step s now e after later) (closed : s.closed = true)
    (prompt : e.Prompt) :
    after.closed = true ∧ acts [e] ++ after.remaining = s.remaining := by
  cases step with
  | sent stop opened | closed opened =>
    rw [closed] at opened
    cases opened
  | passed milliseconds => exact ⟨closed, rfl⟩
  | @received _ stop woke holds =>
    obtain ⟨waits, first, rest, queued, rfl⟩ := receive?_eq_some_iff.mp woke
    obtain rfl : first = stop := Option.some.inj holds
    refine ⟨closed, ?_⟩
    simp only [remaining, waits, queued, drained_cons]
    rfl
  | timedOut woke =>
    obtain ⟨waits, ⟨stop, holds, -⟩, rfl⟩ := timeOut?_eq_some_iff.mp woke
    have empty : s.queue = [] := prompt
    -- the speaker is silenced for the moment held whether it comes first or the closing is noted first
    refine ⟨closed, ?_⟩
    simp only [remaining, waits, empty, holds]
    rfl
  | noted woke =>
    obtain ⟨waits, empty, -, rfl⟩ := noteClosed?_eq_some_iff.mp woke
    refine ⟨closed, ?_⟩
    simp only [remaining, waits, empty]
    cases s.held <;> rfl
  | silenced silence =>
    obtain ⟨last, about, rfl⟩ := silence?_eq_some_iff.mp silence
    refine ⟨closed, ?_⟩
    simp only [remaining, about]
    cases last <;> rfl

private theorem work_lt (strips : acts [e] ++ after.remaining = s.remaining)
    (moves : e.isAct = true ∨ s.phase = .waiting ∧ after.phase ≠ .waiting) : after.work < s.work := by
  have length := congrArg List.length strips
  rw [List.length_append] at length
  obtain act | ⟨waits, woken⟩ := moves
  · have one : (acts [e]).length = 1 := by simp [acts, act]
    unfold work
    split <;> split <;> omega
  · rw [work, work, if_neg woken, if_pos waits]
    omega

private theorem Step.work_le (step : Step s now e after later) (closed : s.closed = true)
    (prompt : e.Prompt) :
    (if e.isOfThread then 1 else 0) + after.work ≤ s.work := by
  have less (moves : e.isAct = true ∨ s.phase = .waiting ∧ after.phase ≠ .waiting) :
      1 + after.work ≤ s.work :=
    Nat.one_add_le_iff.mpr (work_lt (step.strips closed prompt).2 moves)
  cases step with
  | sent stop opened | closed opened =>
    rw [closed] at opened
    cases opened
  | passed => exact Nat.le_of_eq (Nat.zero_add _)
  | received | silenced => exact less (.inl rfl)
  | timedOut woke =>
    obtain ⟨waits, -, rfl⟩ := timeOut?_eq_some_iff.mp woke
    exact less (.inr ⟨waits, nofun⟩)
  | noted woke =>
    obtain ⟨waits, -, -, rfl⟩ := noteClosed?_eq_some_iff.mp woke
    refine less (.inr ⟨waits, ?_⟩)
    cases s.held <;> nofun

private theorem Run.strips (run : Run s start log after later) (closed : s.closed = true)
    (prompt : ∀ e ∈ log, e.Prompt) : after.closed = true ∧ acts log ++ after.remaining = s.remaining ∧
      log.countP Event.isOfThread + after.work ≤ s.work := by
  induction run with
  | start => exact ⟨closed, rfl, by simp⟩
  | @step log e before after _ _ run step ih =>
    obtain ⟨prompt, last⟩ := List.forall_mem_append.mp prompt
    obtain ⟨closed, acts, work⟩ := ih prompt
    have last := last e (List.mem_singleton_self e)
    obtain ⟨closed', first⟩ := step.strips closed last
    refine ⟨closed', ?_, ?_⟩
    · rw [acts_append, List.append_assoc, first, acts]
    · have less := step.work_le closed last
      rw [List.countP_append, List.countP_singleton]
      omega

private theorem canGoOn_or (s : Silencer) (now : Moment) : s.phase = .ended ∨ s.CanGoOn now ∨
    s.queue = [] ∧ s.closed = false ∧ ∀ stop, s.held = some stop → now < stop := by
  cases about : s.phase with
  | ended => exact .inl rfl
  | silencing last =>
    have silence := silence?_eq_some_iff.mpr ⟨last, about, rfl⟩
    exact .inr (.inl ⟨.silenced, _, rfl, trivial, .silenced silence⟩)
  | waiting =>
    right
    cases queued : s.queue with
    | cons stop rest =>
      have received := receive?_eq_some_iff.mpr ⟨about, stop, rest, queued, rfl⟩
      exact .inl ⟨.received stop, _, rfl, trivial, .received received rfl⟩
    | nil =>
      cases closed : s.closed with
      | true =>
        have noted := noteClosed?_eq_some_iff.mpr ⟨about, queued, closed, rfl⟩
        exact .inl ⟨.noted, _, rfl, trivial, .noted noted⟩
      | false =>
        by_cases due : ∃ stop, s.held = some stop ∧ stop ≤ now
        · have woke := timeOut?_eq_some_iff.mpr ⟨about, due, rfl⟩
          exact .inl ⟨.timedOut s.queue, _, rfl, queued, .timedOut woke⟩
        · refine .inr ⟨rfl, rfl, fun stop holds => ?_⟩
          exact Nat.lt_of_not_le fun past => due ⟨stop, holds, past⟩

private theorem canGoOn_of_closed (closed : s.closed = true) (now : Moment) :
    s.phase = .ended ∨ s.CanGoOn now := by
  obtain ended | goes | ⟨-, opened, -⟩ := s.canGoOn_or now
  · exact .inl ended
  · exact .inr goes
  · rw [closed] at opened
    cases opened

/-- Whatever is sent to the stopping thread, in any order and at any time, and whenever the channel is
closed: a moment that was received is held until the next one takes its place or the speaker is silenced for
it, once before anything else is received. The speaker is silenced only for the moment held, once that has
come or once the channel is closed and empty. What is sent is received in order, a thread that has ended has
nothing left to receive and holds nothing, and before that it waits only for more to be sent or for what it
holds to come. From the closing on, if no wait runs out while something is queued, the thread receives all
that is queued and then silences the speaker once for what it holds, after a silence it may have been about
to make, and ends: it has only so many steps left and is never stuck. -/
theorem bursts_silenced_once (run : Run {} start log s now) :
    (∀ earlier stop rest, acts log = earlier ++ .received stop :: rest → Fate stop rest s.held) ∧
    (∀ after, s.silence? = some after → ∃ stop, s.held = some stop ∧
      (acts log).getLast? = some (.received stop) ∧ (stop ≤ now ∨ s.closed = true ∧ s.queue = [])) ∧
    log.filterMap Event.sent? = log.filterMap Event.received? ++ s.queue ∧
    (s.phase = .ended → s.closed = true ∧ s.queue = [] ∧ s.held = none) ∧
    (s.phase = .ended ∨ s.CanGoOn now ∨
      s.queue = [] ∧ s.closed = false ∧ ∀ stop, s.held = some stop → now < stop) ∧
    (s.closed = true → ∀ log' after later, Run s now log' after later → (∀ e ∈ log', e.Prompt) →
      acts log' ++ after.remaining = s.remaining ∧
      log'.countP Event.isOfThread ≤ 2 * s.remaining.length + 1 ∧
      (after.phase = .ended ∨ after.CanGoOn later)) := by
  have followed := run.followed
  refine ⟨fun _ _ _ split => followed.bursts.fate split, ?silence, followed.delivered,
    followed.poised.ended, s.canGoOn_or now, ?closing⟩
  case silence =>
    intro after silence
    obtain ⟨last, about, -⟩ := silence?_eq_some_iff.mp silence
    obtain ⟨stop, holds, due⟩ := followed.poised.holds about
    exact ⟨stop, holds, (holds ▸ followed.bursts).getLast?, due⟩
  case closing =>
    intro closed log' after later ending prompt
    obtain ⟨closed', strips, bound⟩ := ending.strips closed prompt
    refine ⟨strips, ?_, canGoOn_of_closed closed' later⟩
    apply Nat.le_trans (Nat.le_of_add_right_le bound)
    unfold work
    split <;> omega

/-- A moment that is replaced by an earlier one, whose silence is followed by two more; the channel is closed
before the thread has received the second. -/
theorem bursts_silenced_once_of_two :
    ∃ log s now log' after later, Run {} 0 log s now ∧ s.closed = true ∧
      acts log = [.received 60, .received 40, .silenced, .received 90] ∧
      Fate 60 [.received 40, .silenced, .received 90] s.held ∧ Fate 40 [.silenced, .received 90] s.held ∧
      Run s now log' after later ∧ (∀ e ∈ log', e.Prompt) ∧ after.phase = .ended ∧
      acts log' = [.received 80, .silenced] := by
  have fresh : Run {} 0 [] {} 0 := .start
  have on {log : List Event} {s : Silencer} {now : Moment} (_ : Run {} 0 log s now) : Run s now [] s now :=
    .start
  have sent := (fresh.step (.sent 60 rfl)).step (.sent 40 rfl)
  have held := (sent.step (.received rfl rfl)).step (.received rfl rfl)
  have silenced := ((held.step (.passed 50)).step (.timedOut rfl)).step (.silenced rfl)
  have again := ((silenced.step (.sent 90 rfl)).step (.sent 80 rfl)).step (.received rfl rfl)
  have closed := again.step (.closed rfl)
  have ending := (((on closed).step (.received rfl rfl)).step (.noted rfl)).step (.silenced rfl)
  obtain ⟨fates, -, -, -, -, closing⟩ := bursts_silenced_once closed
  have last := (closing rfl _ _ _ ending (by simp [Event.Prompt])).1
  exact ⟨_, _, _, _, _, _, closed, rfl, rfl, fates [] 60 _ rfl, fates [.received 60] 40 _ rfl, ending,
    by simp [Event.Prompt], rfl, last⟩

end Chip8Console.Silencer
