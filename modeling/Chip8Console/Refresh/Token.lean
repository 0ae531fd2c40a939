/-!
Session tokens. Each activation issues a fresh one and makes every earlier one dead, so a tick can be
recognised as belonging to a session that is gone.
-/
namespace Chip8Console

/-- Names a session. -/
structure Token where
  number : Nat
deriving DecidableEq, Repr

/-- Issues tokens, of which at most one is live. -/
structure TokenSource where
  /-- how many tokens were issued -/
  issued : Nat := 0
  active : Option Token := none
deriving DecidableEq, Repr

namespace TokenSource

def activate (s : TokenSource) : Token × TokenSource :=
  let token : Token := ⟨s.issued + 1⟩
  (token, ⟨s.issued + 1, some token⟩)

def invalidate (s : TokenSource) : TokenSource := { s with active := none }

def isActive (s : TokenSource) (token : Token) : Bool := s.active == some token

end TokenSource

end Chip8Console
