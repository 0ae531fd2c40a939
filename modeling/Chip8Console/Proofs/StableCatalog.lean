import Chip8Console.Proofs.ByteOrder
import Chip8Console.Proofs.TreeAgreement
import Chip8Console.Rom.Source
import Mathlib.Data.List.Nodup

/-!
The catalog of a directory of images. It has one name for each file with the extension of images, and
where a name stands in it follows from the names alone, in whatever order the directory gives them.
-/
namespace Chip8Console.RomDirectory

/-- A directory that can be read, and the place it is in. -/
structure IsAt (d : RomDirectory) (files : FileTree) (place : List FileName) : Prop where
  leads : files.resolve d.root = .ok place
  directory : files.node? place = some .directory

private theorem catalogName?_eq_some_iff {entry : FileName} {name : String} :
    catalogName? entry = some name ↔ name ≠ "" ∧ entry = (name ++ ".ch8").toList := by
  have cut : catalogName? entry = some name ↔
      entry.splitExtension = (name.toList, some romExtension) := by
    rw [catalogName?, FileName.extension?, FileName.stem, Option.ite_none_right_eq_some,
      Option.some_inj, String.ofList_eq, Prod.ext_iff, and_comm]
  have plain : '.' ∉ romExtension := by decide
  rw [cut, FileName.splitExtension_eq_some_iff, toList_file, ne_eq, String.toList_eq_nil_iff]
  tauto

private theorem mem_catalogOf_iff {entries : List FileName} {name : String} :
    name ∈ catalogOf entries ↔ name ≠ "" ∧ (name ++ ".ch8").toList ∈ entries := by
  rw [catalogOf, List.mem_mergeSort, List.mem_filterMap]
  simp only [catalogName?_eq_some_iff]
  constructor
  · rintro ⟨entry, listed, named, rfl⟩
    exact ⟨named, listed⟩
  · rintro ⟨named, listed⟩
    exact ⟨_, listed, named, rfl⟩

private theorem pairwise_le_catalogOf (entries : List FileName) : (catalogOf entries).Pairwise (· ≤ ·) := by
  have sorted : (catalogOf entries).Pairwise fun a b => decide (a ≤ b) = true :=
    List.pairwise_mergeSort
      (fun a b c ab bc => decide_eq_true ((of_decide_eq_true ab).trans (of_decide_eq_true bc)))
      (fun a b => by simpa using le_total a b) _
  exact sorted.imp of_decide_eq_true

/-- Two entries do not go by one name. -/
theorem nodup_catalogOf {entries : List FileName} (once : entries.Nodup) : (catalogOf entries).Nodup := by
  refine (List.mergeSort_perm _ _).nodup_iff.mpr (once.filterMap fun entry other name named named' => ?_)
  rw [(catalogName?_eq_some_iff.mp named).2, (catalogName?_eq_some_iff.mp named').2]

private theorem catalogOf_congr {entries entries' : List FileName} (same : entries.Perm entries') :
    catalogOf entries = catalogOf entries' := by
  have perm : (catalogOf entries).Perm (catalogOf entries') :=
    (List.mergeSort_perm _ _).trans ((same.filterMap _).trans (List.mergeSort_perm _ _).symm)
  exact perm.eq_of_pairwise (fun _ _ _ _ => le_antisymm) (pairwise_le_catalogOf _)
    (pairwise_le_catalogOf _)

private theorem IsAt.catalog_eq {d : RomDirectory} {files : FileTree} {place : List FileName}
    (at_place : d.IsAt files place) : d.catalog files = .ok (catalogOf (files.names place)) := by
  simp only [catalog, FileTree.list, at_place.leads, bind, Except.bind, at_place.directory]
  rfl

/-- The catalog of a directory that can be read has a name once if a file of that name with the extension
of images is there, and otherwise not; each name has larger bytes than the one before it. Neither another
order of the entries nor a tree that holds the same files in another order changes it, so that no name
moves to another slot. -/
theorem catalog_stable {d : RomDirectory} {files : FileTree} {place : List FileName}
    (at_place : d.IsAt files place) :
    ∃ names, d.catalog files = .ok names ∧
      (∀ name, names.count name =
        if name ≠ "" ∧ (files.node? (place ++ [(name ++ ".ch8").toList])).isSome then 1 else 0) ∧
      names.Pairwise (fun a b => a.toUTF8.data.toList < b.toUTF8.data.toList) ∧
      (∀ entries, entries.Perm (files.names place) → catalogOf entries = names) ∧
      ∀ files', (∀ other, files'.node? other = files.node? other) → d.catalog files' = .ok names := by
  have once : (catalogOf (files.names place)).Nodup := nodup_catalogOf (files.nodup_names place)
  refine ⟨catalogOf (files.names place), at_place.catalog_eq, fun name => ?count, ?ascending,
    fun entries same => catalogOf_congr same, fun files' agree => ?order⟩
  case count =>
    rw [once.count]
    simp only [mem_catalogOf_iff, FileTree.mem_names_iff]
  case ascending =>
    have strictly := (pairwise_le_catalogOf (files.names place)).and once
    exact strictly.imp fun ⟨le, ne⟩ => Text.toUTF8_lt (lt_of_le_of_ne le ne)
  case order =>
    have at_place' : d.IsAt files' place :=
      ⟨(FileTree.resolve_congr fun other _ => agree other).trans at_place.leads,
        (agree place).trans at_place.directory⟩
    rw [at_place'.catalog_eq, catalogOf_congr (FileTree.names_perm agree place)]

/-- A directory with two images, one of them with a dot in its name, a bare extension, notes and a file
in upper case. -/
theorem catalog_stable_of_shelf :
    let files := FileTree.ofPaths [(.ofString "roms/pong.ch8", .file [0x12]),
      (.ofString "roms/.ch8", .file []), (.ofString "roms/pong.txt", .file []),
      (.ofString "roms/PONG.CH8", .file []), (.ofString "roms/a.b.ch8", .file [0x12])]
    let d : RomDirectory := ⟨.ofString "roms"⟩
    d.IsAt files ["roms".toList] ∧ ∃ names, d.catalog files = .ok names ∧
      names.count "pong" = 1 ∧ names.count "a.b" = 1 ∧ names.count "" = 0 ∧ names.count "PONG" = 0 := by
  intro files d
  have at_place : d.IsAt files ["roms".toList] := ⟨by decide, by decide⟩
  obtain ⟨names, listed, count, -⟩ := catalog_stable at_place
  refine ⟨at_place, names, listed, ?_, ?_, ?_, ?_⟩
  all_goals
    rw [count]
    decide

end Chip8Console.RomDirectory
