import Chip8Console.CommandLine.Reading

/-!
The holds that a command line can ask for. A hold is read as a number of 64 bits, and nothing else bounds
it: each such number is admitted, and no command line asks for more.
-/
namespace Chip8Console

namespace Number
variable {limit before n : Nat} {beyond : NumeralFault} {digits : List Char}

private theorem readDigits_le (h : readDigits limit beyond before digits = .ok n)
    (within : before ≤ limit) :
    n ≤ limit := by
  induction digits generalizing before with
  | nil =>
    cases h
    exact within
  | cons c rest ih =>
    rw [readDigits] at h
    split at h
    · cases h
    · split at h
      · cases h
      · next small => exact ih h (Nat.le_of_not_lt small)

private theorem readNatural_le {text : List Char} (h : readNatural limit text = .ok n) : n ≤ limit := by
  unfold readNatural at h
  split at h
  · cases h
  · cases h
  · exact readDigits_le h (Nat.zero_le limit)
  · exact readDigits_le h (Nat.zero_le limit)

private theorem readDigits_append (more : List Char) (h : readDigits limit beyond before digits = .ok n) :
    readDigits limit beyond before (digits ++ more) = readDigits limit beyond n more := by
  induction digits generalizing before with
  | nil =>
    cases h
    rfl
  | cons c rest ih =>
    rw [readDigits] at h
    rw [List.cons_append, readDigits]
    split at h
    · cases h
    · next digit =>
      split at h
      · cases h
      · next small => rw [if_neg digit, if_neg small, ih h]

private theorem readDigits_digitChar {d : Nat} (digit : d < 10) (within : 10 * before + d ≤ limit) :
    readDigits limit beyond before [d.digitChar] = .ok (10 * before + d) := by
  have value : digitValue d.digitChar = d := by
    rw [digitValue, Nat.toNat_digitChar_of_lt_ten digit]
    exact Nat.add_sub_cancel_left _ d
  rw [readDigits, Nat.isDigit_digitChar, value]
  simp [digit, Nat.not_lt.mpr within, readDigits]

/-- The digits that a number is written with are read as that number. -/
theorem readDigits_toDigits (within : n ≤ limit) :
    readDigits limit beyond 0 (Nat.toDigits 10 n) = .ok n := by
  induction n using Nat.strongRecOn with
  | ind n ih =>
    obtain small | large := Nat.lt_or_ge n 10
    · rw [Nat.toDigits_of_lt_base small, readDigits_digitChar small (by omega)]
      simp
    · rw [Nat.toDigits_of_base_le (by decide) large, readDigits_append _ (ih (n / 10) (by omega) (by omega)),
        readDigits_digitChar (Nat.mod_lt n (by decide)) (by omega), Nat.div_add_mod]

end Number

private theorem exists_digit_repr (n : Nat) : ∃ c rest, n.repr.toList = c :: rest ∧ c.isDigit = true := by
  obtain ⟨c, rest, written⟩ := List.exists_cons_of_ne_nil (Nat.toDigits_ne_nil (n := n) (b := 10))
  refine ⟨c, rest, Nat.toList_repr.trans written, ?_⟩
  exact Nat.isDigit_of_mem_toDigits (by decide) (by decide) (written ▸ List.mem_cons_self)

namespace Setting

private theorem natural_lt {text : String} {n : Nat} (h : natural text = .ok n) : n < Word.limit := by
  unfold natural at h
  cases read : Number.readNatural (Word.limit - 1) text.toList with
  | error fault =>
    rw [read] at h
    cases h
  | ok m =>
    rw [read] at h
    cases h
    exact Nat.lt_of_le_of_lt (Number.readNatural_le read) (by decide)

private theorem natural_repr {n : Nat} (within : n < Word.limit) : natural n.repr = .ok n := by
  obtain ⟨c, rest, written, digit⟩ := exists_digit_repr n
  have unsigned : c ≠ '+' := by
    rintro rfl
    cases digit
  have read : Number.readNatural (Word.limit - 1) n.repr.toList = .ok n := by
    have digits : Number.readDigits (Word.limit - 1) .tooLarge 0 (Nat.toDigits 10 n) = .ok n :=
      Number.readDigits_toDigits (Nat.le_sub_one_of_lt within)
    rw [← Nat.toList_repr, written] at digits
    rw [written]
    unfold Number.readNatural
    split
    · contradiction
    · next same => exact absurd (List.head_eq_of_cons_eq same) unsigned
    · next same => exact absurd (List.head_eq_of_cons_eq same) unsigned
    · exact digits
  rw [natural, read]
  rfl

/-- Only one setting changes the hold, and only to a word. -/
theorem assign_keyHold_lt {s : Setting} {text : String} {c changed : Configuration}
    (h : s.assign text c = .ok changed) (before : c.keyHold < Word.limit) :
    changed.keyHold < Word.limit := by
  cases s with
  | keyHold =>
    simp only [assign] at h
    split at h
    · cases h
    · next n read =>
      cases h
      exact natural_lt read
  | rom | mute =>
    cases h
    exact before
  | _ =>
    simp only [assign] at h
    split at h <;> cases h
    exact before

end Setting

namespace Reading
variable {r after : Reading} {text : String} {wanted : UsageError} {value : Option String}

private theorem of_bind {α β : Type} {first : Except UsageError α} {next : α → Except UsageError β} {b : β}
    (h : first.bind next = .ok b) : ∃ a, first = .ok a ∧ next a = .ok b := by
  cases first with
  | error fault => cases h
  | ok a => exact ⟨a, rfl, h⟩

def HoldsWord (r : Reading) : Prop := r.configuration.keyHold < Word.limit

private theorem HoldsWord.take {p : PendingSetting} (before : r.HoldsWord) (h : r.take p = .ok after) :
    after.HoldsWord := by
  unfold Reading.take at h
  split at h
  · cases h
  · split at h
    · cases h
    · obtain ⟨configuration, assigned, hafter⟩ := of_bind h
      cases hafter
      exact Setting.assign_keyHold_lt assigned before

private theorem HoldsWord.settle (before : r.HoldsWord) (h : r.settle = .ok after) : after.HoldsWord := by
  unfold Reading.settle at h
  split at h
  · cases h
    exact before
  · exact HoldsWord.take (r := { r with pending := none }) before h

private theorem instead_ne_ok : r.instead wanted ≠ .ok after := by
  intro h
  obtain ⟨settled, -, refused⟩ := of_bind h
  cases refused

private theorem insteadLong_ne_ok {name : String} : r.insteadLong wanted name value ≠ .ok after := by
  cases value with
  | none => exact instead_ne_ok
  | some value => exact nofun

private theorem HoldsWord.named {s : Setting} (before : r.HoldsWord) (h : r.named s value = .ok after) :
    after.HoldsWord := by
  unfold Reading.named at h
  split at h
  · cases h
  · obtain ⟨settled, hsettled, taken⟩ := of_bind h
    exact (before.settle hsettled).take taken
  · obtain ⟨settled, hsettled, taken⟩ := of_bind h
    exact (before.settle hsettled).take taken
  · cases hsettled : r.settle with
    | error fault =>
      rw [hsettled] at h
      cases h
    | ok settled =>
      rw [hsettled] at h
      have kept : settled.HoldsWord := before.settle hsettled
      cases h
      exact kept

private theorem HoldsWord.next (before : r.HoldsWord) (h : r.next text = .ok after) : after.HoldsWord := by
  unfold Reading.next at h
  split at h
  · cases h
  · split at h
    case h_1 =>
      cases h
      exact before
    case h_2 => exact absurd h insteadLong_ne_ok
    case h_3 => exact absurd h insteadLong_ne_ok
    case h_4 =>
      split at h
      · exact before.named h
      · cases h
    case h_5 => exact absurd h instead_ne_ok
    case h_6 => exact absurd h instead_ne_ok
    case h_7 => cases h
    case h_8 =>
      split at h <;> cases h
      exact before

private theorem HoldsWord.foldlM {arguments : List String} (before : r.HoldsWord)
    (h : arguments.foldlM Reading.next r = .ok after) : after.HoldsWord := by
  induction arguments generalizing r with
  | nil =>
    cases h
    exact before
  | cons text rest ih =>
    rw [List.foldlM_cons] at h
    obtain ⟨mid, read, later⟩ := of_bind h
    exact ih (before.next read) later

private theorem HoldsWord.finish {c : Configuration} (before : r.HoldsWord) (h : r.finish = .ok c) :
    c.keyHold < Word.limit := by
  obtain ⟨settled, hsettled, done⟩ := of_bind h
  split at done <;> cases done
  exact before.settle hsettled

end Reading

namespace Configuration

/-- Whether some command line asks for keys to be held this long. -/
def AdmitsHold (hold : Nat) : Prop :=
  ∃ arguments c, ofArguments arguments = .ok c ∧ c.keyHold = hold

private theorem ofArguments_keyHold {hold : Nat} (within : hold < Word.limit) :
    ofArguments ["--key-hold", hold.repr] = .ok { keyHold := hold } := by
  obtain ⟨c, rest, written, digit⟩ := exists_digit_repr hold
  have undashed : c ≠ '-' := by
    rintro rfl
    cases digit
  have plain : Argument.ofString hold.repr = .plain := by
    unfold Argument.ofString
    rw [written]
    split <;> simp_all
  have named : Reading.next {} "--key-hold" = .ok { pending := some ⟨.keyHold, none⟩ } := by rfl
  have given : Reading.next { pending := some ⟨.keyHold, none⟩ } hold.repr =
      .ok { pending := some ⟨.keyHold, some hold.repr⟩ } := by
    simp only [Reading.next, plain]
    rfl
  have taken : Reading.finish { pending := some ⟨.keyHold, some hold.repr⟩ } = .ok { keyHold := hold } := by
    simp only [Reading.finish, Reading.settle, Reading.take, Setting.assign, Setting.natural_repr within]
    rfl
  calc ofArguments ["--key-hold", hold.repr]
    _ = (do
        let r ← Reading.next {} "--key-hold"
        let r ← r.next hold.repr
        r.finish) := by simp only [ofArguments, List.foldlM_cons, List.foldlM_nil, bind_assoc, pure_bind]
    _ = .ok { keyHold := hold } := by
      rw [named]
      exact (congrArg (Except.bind · Reading.finish) given).trans taken

/-- A command line can ask for any hold that is a word, and for no other. -/
theorem admitsHold_iff (hold : Nat) : AdmitsHold hold ↔ hold < Word.limit := by
  constructor
  · rintro ⟨arguments, c, read, rfl⟩
    obtain ⟨r, arrived, finished⟩ := Reading.of_bind read
    have fresh : Reading.HoldsWord {} := by
      unfold Reading.HoldsWord
      decide
    exact (fresh.foldlM arrived).finish finished
  · intro within
    exact ⟨_, _, ofArguments_keyHold within, rfl⟩

end Configuration

end Chip8Console
