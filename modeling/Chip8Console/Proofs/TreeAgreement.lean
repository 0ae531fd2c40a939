import Chip8Console.Files.Tree

/-!
How much of a tree a path looks at. Following a path asks only what lies at the places on its way and at
its end, so that trees that hold the same there give the same answer.
-/
namespace Chip8Console

namespace Path

/-- Whether the path leads over a place or to it. -/
def Visits (p : Path) (place : List FileName) : Prop := place ∈ p.through ++ [p.place]

instance (p : Path) (place : List FileName) : Decidable (p.Visits place) :=
  inferInstanceAs (Decidable (_ ∈ _))

private def visited (place : List FileName) (names : List FileName) : List (List FileName) :=
  stops place names ++ [names.foldl step place]

private theorem visited_cons (place : List FileName) (name : FileName) (rest : List FileName) :
    visited place (name :: rest) = place :: visited (step place name) rest := rfl

private theorem mem_visited_start (place : List FileName) (names : List FileName) :
    place ∈ visited place names := by
  cases names with
  | nil => exact List.mem_singleton_self place
  | cons name rest => exact List.mem_cons_self

end Path

namespace FileTree
variable {t t' : FileTree} {place : List FileName} {name : FileName} {names : List FileName} {p : Path}

private theorem follow_eq_ok {after : List FileName} (h : t.follow place name = .ok after) :
    after = Path.step place name := by
  unfold follow at h
  unfold Path.step
  split at h
  · split at h
    · next stays =>
      cases h
      rw [if_pos stays]
    · next moves =>
      rw [if_neg moves]
      split at h
      · next up =>
        cases h
        rw [if_pos up]
      · next down =>
        rw [if_neg down]
        split at h
        · cases h
        · split at h <;> cases h
          rfl
  · cases h

private theorem follow_congr (here : t.node? place = t'.node? place)
    (there : t.node? (Path.step place name) = t'.node? (Path.step place name)) :
    t.follow place name = t'.follow place name := by
  unfold follow
  rw [here]
  by_cases stays : name = [] ∨ name = ['.']
  · simp only [if_pos stays]
  · by_cases up : name = ['.', '.']
    · simp only [if_neg stays, if_pos up]
    · rw [Path.step, if_neg stays, if_neg up] at there
      simp only [if_neg stays, if_neg up, there]

private theorem foldlM_follow_congr
    (agree : ∀ other ∈ Path.visited place names, t.node? other = t'.node? other) :
    names.foldlM t.follow place = names.foldlM t'.follow place := by
  induction names generalizing place with
  | nil => rfl
  | cons name rest ih =>
    rw [Path.visited_cons] at agree
    have here := agree place List.mem_cons_self
    have there := agree (Path.step place name)
      (List.mem_cons_of_mem _ (Path.mem_visited_start (Path.step place name) rest))
    rw [List.foldlM_cons, List.foldlM_cons, follow_congr here there]
    cases led : t'.follow place name with
    | error cause => rfl
    | ok after =>
      rw [follow_eq_ok led]
      exact ih fun other h => agree other (List.mem_cons_of_mem _ h)

/-- A path leads to the same place in trees that agree on all that it leads over. -/
theorem resolve_congr (agree : ∀ place, p.Visits place → t.node? place = t'.node? place) :
    t.resolve p = t'.resolve p := by
  unfold resolve
  rw [foldlM_follow_congr agree]

/-- Trees that hold the same everywhere give the same names in a place, each in an order of its own. -/
theorem names_perm (agree : ∀ other, t.node? other = t'.node? other) (place : List FileName) :
    (t.names place).Perm (t'.names place) := by
  rw [List.perm_ext_iff_of_nodup (t.nodup_names place) (t'.nodup_names place)]
  intro name
  rw [mem_names_iff, mem_names_iff, agree]

end FileTree

end Chip8Console
