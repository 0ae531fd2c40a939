/-!
The forms that arguments of a command line come in.
-/
namespace Chip8Console

/-- One argument, told apart by the dashes in front. -/
inductive Argument where
  /-- two dashes and nothing else -/
  | separator
  /-- two dashes and a name, with what follows its first equals sign -/
  | long (name : String) (value : Option String)
  /-- one dash, a letter, and perhaps more -/
  | short (letter : Char)
  /-- any other text, a single dash and the empty text among them -/
  | plain
deriving DecidableEq, Repr

namespace Argument

def ofString (text : String) : Argument :=
  match text.toList with
  | ['-', '-'] => separator
  | '-' :: '-' :: rest =>
    let name := rest.takeWhile (· != '=')
    match rest.drop name.length with
    | [] => long (String.ofList name) none
    | _ :: value => long (String.ofList name) (some (String.ofList value))
  | '-' :: letter :: _ => short letter
  | _ => plain

end Argument

end Chip8Console
