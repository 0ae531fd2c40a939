import Chip8Console.Error
import Chip8Console.Files.Path

/-!
A tree of files and directories, and what reading it answers. A path is followed component by component
from the root; each component but the last must be a directory.
-/
namespace Chip8Console

inductive FileNode where
  | file (contents : List UInt8)
  | directory
deriving DecidableEq, Repr

/-- A tree of files. Places are given from the root, which is always a directory; of two entries for a
place the first counts. -/
structure FileTree where
  entries : List (List FileName × FileNode)
deriving DecidableEq, Repr

namespace FileTree

def maxName : Nat := 255

def maxPath : Nat := 4095

/-- The tree of these files and directories, made one after the other. On the way to one, every place
that its path leads through becomes a directory, also one that two dots leave again. A later one takes
the place of an earlier one. -/
def ofPaths (nodes : List (Path × FileNode)) : FileTree :=
  ⟨(nodes.flatMap fun (path, node) =>
    path.through.map (·, .directory) ++ [(path.place, node)]).reverse⟩

def node? (t : FileTree) (place : List FileName) : Option FileNode :=
  if place.isEmpty then some .directory else t.entries.lookup place

/-- What was made last lies at its place, whatever was there before. -/
theorem node?_ofPaths_concat (nodes : List (Path × FileNode)) (p : Path) (node : FileNode)
    (h : p.place ≠ []) : (ofPaths (nodes ++ [(p, node)])).node? p.place = some node := by
  simp [ofPaths, node?, h]

def names (t : FileTree) (place : List FileName) : List FileName :=
  (t.entries.filterMap fun entry =>
    if entry.1.dropLast = place then entry.1.getLast? else none).eraseDups

/-- A name is in a place exactly if something lies there under it. -/
theorem mem_names_iff {t : FileTree} {place : List FileName} {name : FileName} :
    name ∈ t.names place ↔ (t.node? (place ++ [name])).isSome = true := by
  have behind (other : List FileName) :
      (if other.dropLast = place then other.getLast? else none) = some name ↔
        other = place ++ [name] := by
    constructor
    · intro h
      split at h
      · next inner =>
        obtain ⟨before, rfl⟩ := List.getLast?_eq_some_iff.mp h
        rw [← inner, List.dropLast_concat]
      · cases h
    · rintro rfl
      rw [List.dropLast_concat, if_pos rfl, List.getLast?_concat]
  rw [names, List.mem_eraseDups, List.mem_filterMap, node?, if_neg (by simp)]
  simp only [behind, List.lookup_isSome_iff]
  simp

private theorem nodup_eraseDups (names : List FileName) : names.eraseDups.Nodup := by
  match names with
  | [] => exact List.nodup_nil
  | name :: rest =>
    rw [List.eraseDups_cons, List.nodup_cons]
    refine ⟨by simp [List.mem_eraseDups], nodup_eraseDups _⟩
termination_by names.length
decreasing_by exact Nat.lt_succ_of_le (List.length_filter_le _ _)

/-- No name is given twice. -/
theorem nodup_names (t : FileTree) (place : List FileName) : (t.names place).Nodup := nodup_eraseDups _

def follow (t : FileTree) (place : List FileName) (name : FileName) :
    Except Cause (List FileName) :=
  match t.node? place with
  | some .directory =>
    if name = [] ∨ name = ['.'] then .ok place
    else if name = ['.', '.'] then .ok place.dropLast
    else if maxName < name.byteLength then .error .nameTooLong
    else if (t.node? (place ++ [name])).isSome then .ok (place ++ [name])
    else .error .notFound
  | _ => .error .notADirectory

def resolve (t : FileTree) (p : Path) : Except Cause (List FileName) :=
  if p.chars.contains (Char.ofNat 0) then .error .nulInName
  else if p.chars.isEmpty then .error .notFound
  else if maxPath < FileName.byteLength p.chars then .error .nameTooLong
  else p.components.foldlM t.follow []

def read (t : FileTree) (p : Path) : Except Cause (List UInt8) := do
  let place ← t.resolve p
  match t.node? place with
  | some (.file contents) => return contents
  | some .directory => .error .isADirectory
  | none => .error .notFound

def readText (t : FileTree) (p : Path) : Except Cause (List Char) := do
  let contents ← t.read p
  match String.fromUTF8? ⟨contents.toArray⟩ with
  | some text => return text.toList
  | none => .error .invalidUtf8

def list (t : FileTree) (p : Path) : Except Cause (List FileName) := do
  let place ← t.resolve p
  match t.node? place with
  | some .directory => return t.names place
  | some (.file _) => .error .notADirectory
  | none => .error .notFound

end FileTree

end Chip8Console
