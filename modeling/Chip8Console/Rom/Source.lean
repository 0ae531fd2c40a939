import Chip8Console.Files.Tree
import Chip8Console.Notice
import Chip8Console.Rom.Basic

/-!
Where images come from: a directory of files with notes beside them, a file picked by the user, or a
list in memory. Notes are trimmed of white space as the Unicode property of that name lists it.
-/
namespace Chip8Console

namespace Text

/-- The ranges of the property, first and last code point. -/
def blankRanges : List (Nat × Nat) := [
  (0x0009, 0x000D), (0x0020, 0x0020), (0x0085, 0x0085), (0x00A0, 0x00A0), (0x1680, 0x1680),
  (0x2000, 0x200A), (0x2028, 0x2029), (0x202F, 0x202F), (0x205F, 0x205F), (0x3000, 0x3000)]

def isBlank (c : Char) : Bool :=
  blankRanges.any fun (first, last) => decide (first ≤ c.toNat ∧ c.toNat ≤ last)

def trimBlank (text : List Char) : List Char :=
  ((text.dropWhile isBlank).reverse.dropWhile isBlank).reverse

end Text

inductive RomRequest where
  /-- by its name, from the source in use -/
  | named (name : String)
  /-- from a file that the user picked -/
  | picked (path : Path)
deriving DecidableEq, Repr

def RomRequest.label : RomRequest → String
  | named name => name
  | picked path => path.text

/-- An image or the reason why there is none, with what is told on the way. -/
structure Fetched where
  result : Except ConsoleError Rom
  notices : List Notice := []

abbrev RomSource := String → Fetched

namespace Rom

/-- The image in a file, without notes. It is called by the file's name less the extension, or by the
path if that names no file. -/
def ofFile (files : FileTree) (path : Path) : Except ConsoleError Rom :=
  let name := match path.stem? with
    | some stem => String.ofList stem
    | none => path.text
  match files.read path with
  | .error cause => .error (.romFetch name cause)
  | .ok bytes => ofBytes name bytes

end Rom

/-- A directory of images, with optional notes beside them. -/
structure RomDirectory where
  root : Path
deriving DecidableEq, Repr

namespace RomDirectory

def romExtension : FileName := ['c', 'h', '8']

/-- The file of an image is called by its name with the extension of images. -/
theorem toList_file (name : String) : (name ++ ".ch8").toList = name.toList ++ '.' :: romExtension := by
  simp [romExtension]

def notesExtension : FileName := ['t', 'x', 't']

/-- The file that holds the image of this name. A name with an extension is taken as it is. -/
def romPath (d : RomDirectory) (name : String) : Path :=
  let path := d.root.join (.ofString name)
  if path.extension?.isSome then path else path.withExtension romExtension

def notesPath (d : RomDirectory) (name : String) : Path :=
  (d.romPath name).withExtension notesExtension

/-- What notes say once trimmed, if they say anything. Notes that cannot be read are told of, unless
there are none. -/
def describe (notes : Path) : Except Cause (List Char) → Option String × List Notice
  | .ok text =>
    let trimmed := Text.trimBlank text
    (if trimmed.isEmpty then none else some (String.ofList trimmed), [])
  | .error .notFound => (none, [])
  | .error cause => (none, [.unreadable notes.text cause])

/-- The image of this name. Notes never fail it. -/
def fetch (d : RomDirectory) (files : FileTree) : RomSource := fun name =>
  match files.read (d.romPath name) with
  | .error cause => { result := .error (.romFetch name cause) }
  | .ok bytes =>
    match Rom.ofBytes name bytes with
    | .error e => { result := .error e }
    | .ok rom =>
      let notes := d.notesPath name
      let (description, notices) := describe notes (files.readText notes)
      { result := .ok { rom with description }, notices }

def catalogName? (entry : FileName) : Option String :=
  if entry.extension? = some romExtension then some (String.ofList entry.stem) else none

/-- The names of all images among some directory entries, in ascending order. -/
def catalogOf (entries : List FileName) : List String :=
  (entries.filterMap catalogName?).mergeSort fun a b => decide (a ≤ b)

def catalog (d : RomDirectory) (files : FileTree) : Except ConsoleError (List String) :=
  match files.list d.root with
  | .error cause => .error (.romFetch d.root.text cause)
  | .ok entries => .ok (catalogOf entries)

end RomDirectory

/-- The source that holds these images. Of two with one name it gives the first. -/
def RomSource.ofRoms (roms : List Rom) : RomSource := fun name =>
  match roms.find? fun rom => rom.name == name with
  | some rom => { result := .ok rom }
  | none => { result := .error (.romFetch name .noSuchRom) }

def RomRequest.answer (source : RomSource) (files : FileTree) : RomRequest → Fetched
  | named name => source name
  | picked path => { result := Rom.ofFile files path }

end Chip8Console
