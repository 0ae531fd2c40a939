/-!
Logs that grow at their end. What stands in a longer log stood in it before or is new.
-/
namespace Chip8Console

variable {α : Type} {log later before after : List α} {entry last : α}

/-- An entry is found either in the first part of a log or in the second. -/
theorem append_eq_append_cons (h : log ++ later = before ++ entry :: after) :
    (∃ between, after = between ++ later ∧ log = before ++ entry :: between) ∨
      ∃ between, later = between ++ entry :: after ∧ before = log ++ between := by
  rcases List.append_eq_append_iff.mp h with ⟨between, hbefore, hlater⟩ | ⟨between, hlog, hafter⟩
  · exact .inr ⟨between, hlater, hbefore⟩
  · cases between with
    | nil =>
      refine .inr ⟨[], hafter.symm, ?_⟩
      rw [hlog, List.append_nil, List.append_nil]
    | cons first between =>
      obtain ⟨rfl, hrest⟩ := List.cons.inj hafter
      exact .inl ⟨between, hrest, hlog⟩

/-- An entry was there before the last one or is the last one. -/
theorem append_eq_append_singleton (h : log ++ [last] = before ++ entry :: after) :
    (∃ between, after = between ++ [last] ∧ log = before ++ entry :: between) ∨
      (after = [] ∧ before = log ∧ entry = last) := by
  refine (append_eq_append_cons h).imp_right ?_
  rintro ⟨between, hlast, hbefore⟩
  cases between with
  | nil =>
    obtain ⟨hentry, hafter⟩ := List.cons.inj hlast
    rw [List.append_nil] at hbefore
    exact ⟨hafter.symm, hbefore, hentry.symm⟩
  | cons first between =>
    have := (List.cons.inj hlast).2
    cases between <;> cases this

end Chip8Console
