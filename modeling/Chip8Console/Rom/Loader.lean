import Chip8Console.Rom.Source

/-!
Loads on their way. A worker answers requests one at a time, in the order in which they were made, and
the answers wait until they are collected. What the worker tells its operator is no part of an answer.
-/
namespace Chip8Console

abbrev LoadResult := LoadTicket × Except ConsoleError Rom

/-- Requests that wait for the worker and answers that wait to be collected, oldest first. -/
structure RomLoader where
  waiting : List (LoadTicket × RomRequest) := []
  finished : List LoadResult := []

namespace RomLoader

def submit (l : RomLoader) (ticket : LoadTicket) (request : RomRequest) : RomLoader :=
  { l with waiting := l.waiting ++ [(ticket, request)] }

def work (l : RomLoader) (answer : RomRequest → Fetched) : RomLoader :=
  match l.waiting with
  | [] => l
  | (ticket, request) :: rest =>
    { waiting := rest, finished := l.finished ++ [(ticket, (answer request).result)] }

def workMany (l : RomLoader) (answer : RomRequest → Fetched) : Nat → RomLoader
  | 0 => l
  | count + 1 => (l.work answer).workMany answer count

def workAll (l : RomLoader) (answer : RomRequest → Fetched) : RomLoader :=
  l.workMany answer l.waiting.length

def poll (l : RomLoader) : List LoadResult × RomLoader := (l.finished, { l with finished := [] })

def next (l : RomLoader) : Option LoadResult × RomLoader :=
  match l.finished with
  | [] => (none, l)
  | first :: rest => (some first, { l with finished := rest })

end RomLoader

end Chip8Console
