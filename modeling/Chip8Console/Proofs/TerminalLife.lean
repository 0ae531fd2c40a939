import Chip8Console.Input.TermInput
import Chip8Console.Proofs.ScreenUse

/-!
What is left of the changes made to a terminal once its input or its screen is gone. Closing takes every
change back and lets no refusal stop it, but only what was opened is closed: of an opening that fails
half-way, what it had changed is left over.
-/
namespace Chip8Console

/-- Whether the change takes something from the terminal that has to be given back. -/
def TerminalAction.takes : TerminalAction → Bool
  | enterRawMode | reportReleases | enterAlternateScreen | hideCursor => true
  | _ => false

/-- The changes that were made and that nothing after them tried to undo. -/
def leftOver : List TerminalAttempt → List TerminalAction
  | [] => []
  | a :: later =>
    if a.action.takes && a.succeeded && later.all (·.action != a.action.undo) then
      a.action :: leftOver later
    else leftOver later

namespace KeyTranslator
variable {t after : KeyTranslator} {events : List HostEvent}

private theorem translateChar_enhanced {c : Char} {motion : KeyMotion}
    (h : t.translateChar c motion = .ok (events, after)) : after.enhanced = t.enhanced := by
  unfold translateChar at h
  dsimp only at h
  split at h
  · cases h
    rfl
  · split at h
    · cases hpress : t.latch.press c.toLower t.refreshes with
      | error fault =>
        rw [hpress] at h
        cases h
      | ok pressed =>
        rw [hpress] at h
        cases h
        rfl
    · cases h
      rfl

/-- No key event changes what the terminal was found to report. -/
theorem translate_enhanced {e : KeyEvent} (h : t.translate e = .ok (events, after)) :
    after.enhanced = t.enhanced := by
  unfold translate at h
  split at h
  · cases h
    rfl
  · split at h
    · exact translateChar_enhanced h
    all_goals
      cases h
      rfl

private theorem translateAll_enhanced {given : List KeyEvent}
    (h : t.translateAll given = .ok (events, after)) :
    after.enhanced = t.enhanced := by
  induction given generalizing t events with
  | nil =>
    cases h
    rfl
  | cons e rest ih =>
    obtain ⟨⟨first, t'⟩, hfirst, hrest⟩ := ArithmeticFault.bind_eq_ok_iff.mp h
    obtain ⟨⟨others, t''⟩, hothers, hafter⟩ := ArithmeticFault.bind_eq_ok_iff.mp hrest
    cases hafter
    exact (ih hothers).trans (translate_enhanced hfirst)

private theorem madeUpReleases_enhanced (t : KeyTranslator) : t.madeUpReleases.2.enhanced = t.enhanced := by
  unfold madeUpReleases
  split <;> rfl

end KeyTranslator

namespace TermInput

/-- One refresh of reading: what the terminal gives, and how it fails after that, if it does. -/
structure Poll where
  given : List TerminalEvent
  failure : Option Cause

def pollAll (input : TermInput) : List Poll → TermInput
  | [] => input
  | p :: rest =>
    match input.poll p.given p.failure with
    | .ok (_, input) => input.pollAll rest
    | .error _ => input

def life (hold : Nat) (host : OpeningHost) (polls : List Poll) (closing : ClosingHost) :
    List TerminalAttempt :=
  let opened := opening hold host
  match opened.result with
  | .error _ => opened.attempts
  | .ok input => opened.attempts ++ ((input.pollAll polls).close closing).1

private theorem poll_enhanced {input after : TermInput} {given : List TerminalEvent}
    {failure : Option Cause}
    {result : Except Cause (List HostEvent)} (h : input.poll given failure = .ok (result, after)) :
    after.translator.enhanced = input.translator.enhanced := by
  obtain ⟨⟨events, translator⟩, htranslated, hafter⟩ := ArithmeticFault.bind_eq_ok_iff.mp h
  have kept := KeyTranslator.translateAll_enhanced htranslated
  cases failure with
  | some cause =>
    cases hafter
    exact kept
  | none =>
    cases hafter
    exact translator.madeUpReleases_enhanced.trans kept

private theorem pollAll_enhanced (input : TermInput) (polls : List Poll) :
    (input.pollAll polls).translator.enhanced = input.translator.enhanced := by
  induction polls generalizing input with
  | nil => rfl
  | cons p rest ih =>
    rw [pollAll]
    split
    · next result after h => exact (ih after).trans (poll_enhanced h)
    · rfl

/-- Whether opening fails once raw mode was entered. -/
def OpeningHost.failsHalfway (host : OpeningHost) : Bool :=
  host.enterRawMode.isOk && host.enhanced && !host.write.isOk

/-- Reading does not matter for what is done to the terminal. -/
theorem life_polls (hold : Nat) (host : OpeningHost) (polls : List Poll) (closing : ClosingHost) :
    life hold host polls closing = life hold host [] closing := by
  simp only [life]
  split
  · rfl
  · next input opened =>
    simp only [close, pollAll_enhanced]

private theorem leftOver_life (hold : Nat) (host : OpeningHost) (polls : List Poll)
    (closing : ClosingHost) :
    leftOver (life hold host polls closing) = if host.failsHalfway then [.enterRawMode] else [] := by
  rw [life_polls]
  -- without the reading each answer of the terminal leaves a list that can be computed
  obtain ⟨enterRawMode, canReport, write⟩ := host
  cases enterRawMode with
  | error cause => rfl
  | ok =>
    match canReport with
    | .error cause | .ok false => rfl
    | .ok true => cases write <;> rfl

/-- What is tried does not depend on what the terminal answers while it is given back. -/
theorem life_actions (hold : Nat) (host : OpeningHost) (polls : List Poll) (closing : ClosingHost) :
    (life hold host polls closing).map TerminalAttempt.action =
      (life hold host polls ⟨.ok (), .ok ()⟩).map TerminalAttempt.action := by
  simp only [life]
  split
  · rfl
  · simp only [close, List.map_append]
    split <;> rfl

end TermInput

namespace TermDisplay

/-- A screen from its opening to the end of it: what is done to the terminal, and the screen as it was
left, if there was one. -/
def life (width height scale : Nat) (host : OpeningHost) (uses : List Use) (closing : Except Cause Unit) :
    List TerminalAttempt × Option TermDisplay :=
  let (attempts, result) := opening width height scale host
  match result with
  | .ok (.ok opened) => (attempts ++ (close closing).1, some (opened.useAll uses))
  | _ => (attempts, none)

def opens (width height scale : Nat) (host : OpeningHost) : Bool :=
  host.write.isOk && host.size.isOk && host.clear.isOk &&
    (Resolution.ofPicture width height (max scale 1)).isOk

private theorem leftOver_life (width height scale : Nat) (host : OpeningHost) (uses : List Use)
    (closing : Except Cause Unit) :
    leftOver (life width height scale host uses closing).1 =
      if host.write.isOk && !opens width height scale host then [.enterAlternateScreen, .hideCursor]
      else [] := by
  obtain ⟨write, size, clear⟩ := host
  cases write with
  | error cause => rfl
  | ok =>
    cases size with
    | error cause => rfl
    | ok terminal =>
      cases clear with
      | error cause => rfl
      | ok =>
        have accepted : opening width height scale ⟨.ok (), .ok terminal, .ok ()⟩ =
            ([⟨.enterAlternateScreen, .ok ()⟩, ⟨.hideCursor, .ok ()⟩],
              .ok (ofPicture terminal width height scale)) := rfl
        have opened : opens width height scale ⟨.ok (), .ok terminal, .ok ()⟩ =
            (Resolution.ofPicture width height (max scale 1)).isOk := rfl
        rw [life, accepted, opened, ofPicture]
        cases Resolution.ofPicture width height (max scale 1) <;> rfl

private theorem life_actions (width height scale : Nat) (host : OpeningHost) (uses : List Use)
    (closing : Except Cause Unit) :
    (life width height scale host uses closing).1.map TerminalAttempt.action =
      (life width height scale host uses (.ok ())).1.map TerminalAttempt.action := by
  simp only [life]
  split
  · simp only [close, List.map_append, List.map_cons]
  · rfl

end TermDisplay

/-- However often keys are read, whatever is done to the screen and whatever fails: of a terminal whose
input and screen were opened nothing is left over once they are gone, and a refusal to take one change
back stops none of the others. What opening had changed when it failed half-way is left over, all of it:
raw mode, where the terminal refused to be told to report releases; the alternate screen without a cursor,
where it accepted these and then would not tell its size or be cleared, or where the surface met a fault. -/
theorem left_over_of_half_opened (hold : Nat) (host : TermInput.OpeningHost)
    (polls : List TermInput.Poll) (closing : TermInput.ClosingHost) (width height scale : Nat)
    (screenHost : TermDisplay.OpeningHost) (uses : List TermDisplay.Use) (write : Except Cause Unit) :
    let input := TermInput.life hold host polls closing
    let screen := (TermDisplay.life width height scale screenHost uses write).1
    (leftOver input = if host.failsHalfway then [.enterRawMode] else []) ∧
    (leftOver screen =
      if screenHost.write.isOk && !TermDisplay.opens width height scale screenHost then
        [.enterAlternateScreen, .hideCursor]
      else []) ∧
    input.map TerminalAttempt.action =
      (TermInput.life hold host polls ⟨.ok (), .ok ()⟩).map TerminalAttempt.action ∧
    screen.map TerminalAttempt.action =
      (TermDisplay.life width height scale screenHost uses (.ok ())).1.map TerminalAttempt.action :=
  ⟨TermInput.leftOver_life hold host polls closing,
    TermDisplay.leftOver_life width height scale screenHost uses write,
    TermInput.life_actions hold host polls closing,
    TermDisplay.life_actions width height scale screenHost uses write⟩

/-- A terminal that refuses to be told to report releases stays in raw mode, and one that will not tell
its size keeps the alternate screen and no cursor. -/
theorem left_over_of_refusals :
    (¬ ∀ (hold : Nat) (host : TermInput.OpeningHost) (polls : List TermInput.Poll)
      (closing : TermInput.ClosingHost), leftOver (TermInput.life hold host polls closing) = []) ∧
    ¬ ∀ (width height scale : Nat) (host : TermDisplay.OpeningHost) (uses : List TermDisplay.Use)
      (closing : Except Cause Unit),
      leftOver (TermDisplay.life width height scale host uses closing).1 = [] := by
  constructor
  · intro given_back
    have h := given_back 3 ⟨.ok (), .ok true, .error (.other "execute refused")⟩ [] ⟨.ok (), .ok ()⟩
    cases h
  · intro given_back
    have h := given_back 2 2 1 ⟨.ok (), .error (.other "size refused"), .ok ()⟩ [] (.ok ())
    cases h

end Chip8Console
