import Chip8Console.Refresh.Token

/-!
Ticks waiting for the next refresh of the screen. A tick requested now is delivered once, at the next
boundary, unless it is cancelled before.
-/
namespace Chip8Console

structure TickHandle where
  number : Nat
deriving DecidableEq, Repr

/-- A host that delivers requested ticks at a refresh of the screen. -/
class RefreshHost (R : Type) where
  /-- Ask for one tick of a session. -/
  request : R → Token → TickHandle × R
  /-- Withdraw a tick that is not delivered yet. A host may be unable to. -/
  cancel : R → TickHandle → R

structure RefreshQueue where
  /-- how many ticks were ever requested -/
  requested : Nat := 0
  pending : List (TickHandle × Token) := []
deriving DecidableEq, Repr

namespace RefreshQueue

def request (q : RefreshQueue) (token : Token) : TickHandle × RefreshQueue :=
  let handle : TickHandle := ⟨q.requested + 1⟩
  (handle, ⟨q.requested + 1, q.pending ++ [(handle, token)]⟩)

/-- Withdraw a tick. Handles that are not pending are ignored. -/
def cancel (q : RefreshQueue) (handle : TickHandle) : RefreshQueue :=
  { q with pending := q.pending.filter fun entry => entry.1 != handle }

/-- Take every tick that is due, oldest first. What is requested while they run waits for the next
boundary. -/
def fire (q : RefreshQueue) : List Token × RefreshQueue :=
  (q.pending.map Prod.snd, { q with pending := [] })

def length (q : RefreshQueue) : Nat := q.pending.length

instance : RefreshHost RefreshQueue where
  request := request
  cancel := cancel

end RefreshQueue

structure UncancellableQueue where
  queue : RefreshQueue := {}
deriving DecidableEq, Repr

instance : RefreshHost UncancellableQueue where
  request q token := let (handle, queue) := q.queue.request token; (handle, ⟨queue⟩)
  cancel q _ := q

def UncancellableQueue.fire (q : UncancellableQueue) : List Token × UncancellableQueue :=
  let (due, queue) := q.queue.fire
  (due, ⟨queue⟩)

end Chip8Console
