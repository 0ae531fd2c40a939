import Chip8Console.CommandLine.Reading
import Chip8Console.Input.TermInput
import Chip8Console.Terminal.Player

/-!
The program: it reads the command line and the images, then plays. Lines of standard input stand for
keys: the word `quit` is the escape key, an upper-case F with a number is a function key, and any other
line is the keys of its characters. The picture is drawn at each refresh that changes it.
-/
namespace Chip8Console

namespace TypedLine

/-- The key events that a line stands for. -/
def keyEvents (line : String) : List KeyEvent :=
  if line = "quit" then [{ code := .escape }]
  else
    let keys := line.toList.map fun c => ({ code := .char c } : KeyEvent)
    match line.toList with
    | 'F' :: digits =>
      match (String.ofList digits).toNat? with
      | some number => [{ code := .function number }]
      | none => keys
    | _ => keys

def events (line : String) : List TerminalEvent := (keyEvents line).map .key

end TypedLine

namespace Program

def readFiles (c : Configuration) : IO FileTree := do
  let file (path : Path) : IO (List (Path × FileNode)) := do
    try return [(path, .file (← IO.FS.readBinFile path.text).toList)]
    catch _ => return []
  let listed ← try
      let root ← IO.FS.realPath c.romDirectory.text
      let entries ← root.readDir
      pure ((c.romDirectory, FileNode.directory)
        :: (← entries.toList.mapM fun e => file (c.romDirectory.join (.ofString e.fileName))).flatten)
    catch _ => pure []
  let chosen ← match c.initial with
    | some (.picked path) => file path
    | _ => pure []
  return .ofPaths (listed ++ chosen)

def side (name : String) (default : Nat) : IO Nat := do
  return ((← IO.getEnv name).bind String.toNat?).getD default

def apply (out : IO.FS.Stream) (action : TerminalAction) : IO Unit :=
  match action.sequence? with
  | some sequence => do out.putStr sequence; out.flush
  | none => return ()

def draw (out : IO.FS.Stream) (rows : List String) : IO Unit := do
  out.putStr (escapeChar.toString ++ "[H" ++ "\r\n".intercalate rows)
  out.flush

/-- What does not change while the console plays. -/
structure Stage where
  configuration : Configuration
  files : FileTree
  input : IO.FS.Stream
  output : IO.FS.Stream

/-- Refresh the screen until the user quits, the input ends or a refresh fails. -/
partial def play (s : Stage) (p : Player) (shown : List String) (count : Nat)
    (reading : Task (Except IO.Error String)) : IO (Except String Player) := do
  let mut reading := reading
  let mut typed : List TerminalEvent := []
  if ← IO.hasFinished reading then
    let line ← IO.ofExcept reading.get
    typed := if line.isEmpty then TypedLine.events "quit" else TypedLine.events line.trimAscii.toString
    unless line.isEmpty || line.trimAscii.toString = "quit" do
      reading ← IO.asTask s.input.getLine
  let source := (RomDirectory.mk s.configuration.romDirectory).fetch s.files
  let dice := (Dice.ofSeed (UInt64.ofNat (← IO.monoNanosNow))).skip count
  match p.refresh (RomRequest.answer source s.files) typed dice with
  | .error fault => return .error fault.message
  | .ok (.error e, _) => return .error e.message
  | .ok (.ok .quit, p) => return .ok p.teardown
  | .ok (.ok .goOn, after) =>
    let rows := after.rows
    if rows ≠ shown then draw s.output rows
    if p.tones < after.tones && !s.configuration.mute then
      s.output.putStr "\x07"
      s.output.flush
    IO.sleep (UInt32.ofNat s.configuration.refreshRate.milliseconds)
    play s after rows (count + 1) reading

def run (c : Configuration) : IO UInt32 := do
  let files ← readFiles c
  let listed := (RomDirectory.mk c.romDirectory).catalog files
  let terminal : Area := ⟨← side "COLUMNS" 80, ← side "LINES" 24⟩
  let s : Stage := ⟨c, files, ← IO.getStdin, ← IO.getStdout⟩
  let opened := [TerminalAction.enterAlternateScreen, .hideCursor]
  opened.forM (apply s.output)
  let reading ← IO.asTask s.input.getLine
  let ended ← match Player.ofConfiguration c terminal listed with
    | .error fault => pure (.error fault.message)
    | .ok p => play s p [] 0 reading
  opened.reverse.forM fun action => apply s.output action.undo
  match ended with
  | .ok p =>
    p.warnings.forM fun line => IO.eprintln line
    return 0
  | .error text =>
    IO.eprintln text
    return 1

end Program

end Chip8Console

/-- Help and the version go to standard output; any other fault of the command line is told as an
error. -/
def main (arguments : List String) : IO UInt32 := do
  match Chip8Console.Configuration.ofArguments arguments with
  | .ok c => Chip8Console.Program.run c
  | .error .helpWanted =>
    IO.println Chip8Console.UsageError.helpWanted.message
    return 0
  | .error .versionWanted =>
    IO.println Chip8Console.UsageError.versionWanted.message
    return 0
  | .error e =>
    IO.eprintln e.message
    return 2
