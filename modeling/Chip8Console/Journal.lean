import Chip8Console.Machine.CallLog
import Chip8Console.Notice

/-!
The journal of a run: the notices given and the calls that recording machines were sent, in the
order in which they happened.
-/
namespace Chip8Console

/-- One line of the journal. -/
inductive Entry where
  | notice (notice : Notice)
  | call (machine : Nat) (call : Call)
deriving DecidableEq, Repr

abbrev Journal := List Entry

namespace Journal

def ofNotices (notices : List Notice) : Journal := notices.map .notice

def notices (journal : Journal) : List Notice :=
  journal.filterMap fun
    | .notice n => some n
    | .call .. => none

def calls (journal : Journal) : CallLog :=
  journal.filterMap fun
    | .notice _ => none
    | .call machine c => some (machine, c)

/-- The notices of one journal behind another are those of the first, then those of the second. -/
theorem notices_append (first second : Journal) :
    notices (first ++ second) = first.notices ++ second.notices := by
  simp [notices]

/-- The calls of one journal behind another are those of the first, then those of the second. -/
theorem calls_append (first second : Journal) :
    calls (first ++ second) = first.calls ++ second.calls := by
  simp [calls]

end Journal

end Chip8Console
