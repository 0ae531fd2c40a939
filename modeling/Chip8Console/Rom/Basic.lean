import Chip8Console.Error

/-!
Program images.
-/
namespace Chip8Console

structure Rom where
  name : String
  bytes : List UInt8
  description : Option String := none
deriving DecidableEq, Repr

namespace Rom

/-- The image of this name. An image without bytes is refused. -/
def ofBytes (name : String) (bytes : List UInt8) : Except ConsoleError Rom :=
  if bytes.isEmpty then .error (.romEmpty name) else .ok { name, bytes }

end Rom

structure LoadTicket where
  number : Nat
deriving DecidableEq, Repr

end Chip8Console
