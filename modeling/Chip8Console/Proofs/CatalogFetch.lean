import Chip8Console.Environment
import Chip8Console.Proofs.LastSelection

/-!
The catalog of a directory of images and the fetch by name. A name is listed without the extension of its
file, and an image is looked for under its name as it is where that has an extension.
-/
namespace Chip8Console

namespace RomDirectory

/-- A name with no dot behind its first character that is no dot itself. -/
def Undotted (name : String) : Prop := '.' ∉ name.toList.drop 1 ∧ name ≠ "."

instance (name : String) : Decidable (Undotted name) := inferInstanceAs (Decidable (_ ∧ _))

/-- What the name of a file can be before an extension of three letters. -/
structure IsStem (name : String) : Prop where
  nonempty : name ≠ ""
  slash : '/' ∉ name.toList
  nul : Char.ofNat 0 ∉ name.toList
  short : FileName.byteLength name.toList + 4 ≤ FileTree.maxName

/-- The catalog has this name, and the file that it stands for can be read and is not empty. -/
structure Lists (d : RomDirectory) (files : FileTree) (name : String) (bytes : List UInt8) : Prop where
  listed : ∃ names, d.catalog files = .ok names ∧ name ∈ names
  readable : files.read (d.root.join (.ofString (name ++ ".ch8"))) = .ok bytes
  nonempty : bytes ≠ []

private theorem IsStem.toList_ne_nil {name : String} (h : IsStem name) : name.toList ≠ [] :=
  fun hh => h.nonempty (String.toList_eq_nil_iff.mp hh)

private theorem isAbsolute_eq_false {chars : List Char} (h : '/' ∉ chars) :
    Path.isAbsolute ⟨chars⟩ = false := by
  cases chars with
  | nil => rfl
  | cons c rest =>
    have : c ≠ '/' := fun hh => h (hh ▸ List.mem_cons_self)
    simpa [Path.isAbsolute] using this

/-- A name that is undotted is looked for in the file it was listed for. -/
theorem romPath_undotted (d : RomDirectory) {name : String} (stem : IsStem name)
    (undotted : Undotted name) : d.romPath name = d.root.join (.ofString (name ++ ".ch8")) := by
  obtain ⟨before, hbefore, hjoin⟩ := d.root.join_relative
  have hcut := FileName.splitExtension_of_notMem undotted.1
  have hstem : FileName.stem name.toList = name.toList := congrArg Prod.fst hcut
  have hdot : name.toList ≠ ['.'] := fun h => undotted.2 (String.toList_inj.mp h)
  have hdots : name.toList ≠ ['.', '.'] := fun h => undotted.1 (h ▸ List.mem_singleton_self _)
  have hsplit := Path.splitFileName?_append hbefore stem.slash stem.toList_ne_nil hdot hdots
  have hname : d.root.join (.ofString name) = ⟨before ++ name.toList⟩ :=
    hjoin _ (isAbsolute_eq_false stem.slash)
  have hfile : d.root.join (.ofString (name ++ ".ch8")) =
      ⟨before ++ (name.toList ++ '.' :: romExtension)⟩ := by
    have hslash : '/' ∉ (name ++ ".ch8").toList := by
      rw [toList_file, List.mem_append, not_or]
      exact ⟨stem.slash, by decide⟩
    rw [← toList_file]
    exact hjoin _ (isAbsolute_eq_false hslash)
  have hnone : Path.extension? ⟨before ++ name.toList⟩ = none := by
    rw [Path.extension?_append hsplit, FileName.extension?, hcut]
  have hextended := Path.withExtension_append hsplit (hstem.symm ▸ hdot) romExtension
  rw [hstem] at hextended
  simp only [romPath, hname, hnone, hfile, hextended, Option.isSome_none, Bool.false_eq_true, if_false]

/-- An undotted name that the catalog has is fetched with what its file holds. -/
theorem fetch_undotted {d : RomDirectory} {files : FileTree} {name : String} {bytes : List UInt8}
    (stem : IsStem name) (undotted : Undotted name) (lists : d.Lists files name bytes) :
    ∃ description notices, d.fetch files name = ⟨.ok ⟨name, bytes, description⟩, notices⟩ := by
  have hread : files.read (d.romPath name) = .ok bytes := by
    rw [d.romPath_undotted stem undotted]
    exact lists.readable
  have hrom : Rom.ofBytes name bytes = .ok { name, bytes } := by
    rw [Rom.ofBytes, if_neg (by simpa using lists.nonempty)]
  unfold fetch
  rw [hread]
  simp only [hrom]
  exact ⟨_, _, rfl⟩

private def roms : FileName := ['r', 'o', 'm', 's']

private def shelf (stem : FileName) : FileTree :=
  ⟨[([roms, stem ++ '.' :: romExtension], .file [0x12, 0x00]), ([roms], .directory)]⟩

private theorem node?_shelf (stem other : FileName) : (shelf stem).node? [roms, other] =
    if other = stem ++ '.' :: romExtension then some (.file [0x12, 0x00]) else none := by
  by_cases h : other = stem ++ '.' :: romExtension
  · simp [shelf, FileTree.node?, h]
  · have hne : ([roms, other] == [roms, stem ++ '.' :: romExtension]) = false := by simpa using h
    simp [shelf, FileTree.node?, List.lookup_cons, hne, h]

private theorem node?_roms (stem : FileName) : (shelf stem).node? [roms] = some .directory := by
  simp [shelf, FileTree.node?, List.lookup_cons]

private theorem resolve_shelf (stem : FileName) {chars : List Char} {rest : List FileName}
    (components : Path.components ⟨chars⟩ = roms :: rest) (nul : Char.ofNat 0 ∉ chars)
    (short : FileName.byteLength chars ≤ FileTree.maxPath) :
    (shelf stem).resolve ⟨chars⟩ = rest.foldlM (shelf stem).follow [roms] := by
  have hchars : chars ≠ [] := by
    rintro rfl
    cases components
  have hstart : (shelf stem).node? [] = some .directory := rfl
  have hroms : (shelf stem).follow [] roms = .ok [roms] := by
    have hplain : ¬(roms = [] ∨ roms = ['.']) ∧ roms ≠ ['.', '.'] ∧
        ¬FileTree.maxName < roms.byteLength := by decide
    simp only [FileTree.follow, hstart, if_neg hplain.1, if_neg hplain.2.1, if_neg hplain.2.2,
      List.nil_append, node?_roms]
    rfl
  rw [FileTree.resolve, if_neg (by simpa using nul), if_neg (by simpa using hchars),
    if_neg (Nat.not_lt.mpr short), components, List.foldlM_cons, hroms]
  rfl

private theorem read_shelf (stem : FileName) {other : FileName} (slash : '/' ∉ other)
    (nul : Char.ofNat 0 ∉ other) (short : other.byteLength ≤ FileTree.maxName) (hother : other ≠ [])
    (hdot : other ≠ ['.']) (hdots : other ≠ ['.', '.']) :
    (shelf stem).read ⟨roms ++ '/' :: other⟩ =
      if other = stem ++ '.' :: romExtension then .ok [0x12, 0x00] else .error .notFound := by
  have hcomponents : Path.components ⟨roms ++ '/' :: other⟩ = [roms, other] := by
    simp [Path.components, roms, Path.splitSlashes, Path.splitSlashes_of_notMem slash]
  have hlength : FileName.byteLength (roms ++ '/' :: other) ≤ FileTree.maxPath := by
    have hslash : FileName.byteLength ('/' :: other) = 1 + other.byteLength :=
      FileName.byteLength_append ['/'] other
    have hroms : FileName.byteLength roms = 4 := by decide
    rw [FileName.byteLength_append, hslash, hroms]
    simp only [FileTree.maxName, FileTree.maxPath] at short ⊢
    omega
  have hnul : Char.ofNat 0 ∉ roms ++ '/' :: other := by
    simp only [List.mem_append, List.mem_cons, not_or]
    exact ⟨by decide, by decide, nul⟩
  have hplain : ¬(other = [] ∨ other = ['.']) := not_or.mpr ⟨hother, hdot⟩
  rw [FileTree.read, resolve_shelf stem hcomponents hnul hlength]
  simp only [List.foldlM_cons, List.foldlM_nil, FileTree.follow, node?_roms, if_neg hplain,
    if_neg hdots, if_neg (Nat.not_lt.mpr short), List.cons_append, List.nil_append, node?_shelf]
  by_cases h : other = stem ++ '.' :: romExtension
  · simp [h, node?_shelf, bind, Except.bind, pure, Except.pure]
  · simp [h, bind, Except.bind]

private theorem join_roms {other : List Char} (slash : '/' ∉ other) :
    Path.join ⟨roms⟩ ⟨other⟩ = ⟨roms ++ '/' :: other⟩ := by
  simp [Path.join, isAbsolute_eq_false slash, roms]

private theorem catalog_shelf {stem : FileName} (h : stem ≠ []) :
    catalog ⟨⟨roms⟩⟩ (shelf stem) = .ok [String.ofList stem] := by
  have hresolve : (shelf stem).resolve ⟨roms⟩ = .ok [roms] :=
    resolve_shelf stem (by decide : Path.components ⟨roms⟩ = [roms]) (by decide) (by decide)
  have hlist : (shelf stem).list ⟨roms⟩ = .ok [stem ++ '.' :: romExtension] := by
    simp only [FileTree.list, hresolve, bind, Except.bind, node?_roms]
    simp [FileTree.names, shelf, roms, pure, Except.pure, List.eraseDups_cons]
  have hname : catalogName? (stem ++ '.' :: romExtension) = some (String.ofList stem) := by
    have hcut : FileName.splitExtension (stem ++ '.' :: romExtension) = (stem, some romExtension) :=
      FileName.splitExtension_append h (by decide)
    simp [catalogName?, FileName.extension?, FileName.stem, hcut]
  simp [catalog, hlist, catalogOf, hname]

private theorem lists_shelf {name : String} (stem : IsStem name) :
    Lists ⟨⟨roms⟩⟩ (shelf name.toList) name [0x12, 0x00] := by
  refine ⟨⟨_, catalog_shelf stem.toList_ne_nil, ?_⟩, ?_, nofun⟩
  · simp
  · have hslash : '/' ∉ name.toList ++ '.' :: romExtension := by
      rw [List.mem_append, not_or]
      exact ⟨stem.slash, by decide⟩
    have hnul : Char.ofNat 0 ∉ name.toList ++ '.' :: romExtension := by
      rw [List.mem_append, not_or]
      exact ⟨stem.nul, by decide⟩
    have hshort : FileName.byteLength (name.toList ++ '.' :: romExtension) ≤ FileTree.maxName := by
      rw [FileName.byteLength_append]
      exact stem.short
    change (shelf name.toList).read (Path.join ⟨roms⟩ ⟨(name ++ ".ch8").toList⟩) = _
    rw [toList_file, join_roms hslash, read_shelf _ hslash hnul hshort]
    · exact if_pos rfl
    · exact List.append_ne_nil_of_left_ne_nil stem.toList_ne_nil _
    · exact fun h => absurd (congrArg List.length h) (by simp [romExtension])
    · exact fun h => absurd (congrArg List.length h) (by simp [romExtension])

private theorem read_dotted {name : String} (stem : IsStem name) (dotted : ¬Undotted name) :
    ∃ cause, (shelf name.toList).read (romPath ⟨⟨roms⟩⟩ name) = .error cause := by
  have hpath : romPath ⟨⟨roms⟩⟩ name =
      if (Path.extension? ⟨roms ++ '/' :: name.toList⟩).isSome then ⟨roms ++ '/' :: name.toList⟩
      else Path.withExtension ⟨roms ++ '/' :: name.toList⟩ romExtension := by
    simp only [romPath, Path.ofString, join_roms stem.slash]
  rw [hpath]
  by_cases hdot : name.toList = ['.']
  · rw [hdot]
    exact ⟨.notFound, by decide⟩
  by_cases hdots : name.toList = ['.', '.']
  · rw [hdots]
    exact ⟨.isADirectory, by decide⟩
  have hmem : '.' ∈ name.toList.drop 1 := by
    by_contra hmem
    exact dotted ⟨hmem, fun h => hdot (h ▸ rfl)⟩
  have hbefore : roms ++ ['/'] = [] ∨ (roms ++ ['/']).getLast? = some '/' := .inr rfl
  have hsplit := Path.splitFileName?_append hbefore stem.slash stem.toList_ne_nil hdot hdots
  have hextension : (Path.extension? ⟨roms ++ '/' :: name.toList⟩).isSome = true := by
    have h := Path.extension?_append hsplit
    rw [List.append_assoc] at h
    exact (congrArg Option.isSome h).trans (FileName.extension?_isSome_of_mem hmem)
  have hshort : FileName.byteLength name.toList ≤ FileTree.maxName :=
    Nat.le_trans (Nat.le_add_right _ 4) stem.short
  have hother : name.toList ≠ name.toList ++ '.' :: romExtension := by simp
  refine ⟨.notFound, ?_⟩
  rw [if_pos hextension, read_shelf _ stem.slash stem.nul hshort stem.toList_ne_nil hdot hdots,
    if_neg hother]

variable {M D S : Type} [Display D]

private theorem selectSlot_answer (env : Environment M D S) {slot : Nat} {name : String}
    (h : env.catalog[slot]? = some name) (answer : RomRequest → Fetched) :
    (env.selectSlot slot).result = .ok () ∧
      ((env.selectSlot slot).environment.loader.workAll answer).finished.getLast? =
        some (env.sessions.beginLoad.1, (answer (.named name)).result) := by
  have hselect : env.selectSlot slot =
      ⟨.ok (), (env.select (.named name)).1, (env.select (.named name)).2⟩ := by
    simp only [Environment.selectSlot, h]
  have hloader : (env.select (.named name)).1.loader =
      env.loader.submit env.sessions.beginLoad.1 (.named name) := rfl
  rw [hselect]
  refine ⟨rfl, ?_⟩
  rw [(RomLoader.workAll_answers _ answer).2, hloader]
  simp [RomLoader.submit]

variable (M D S) in
/-- Catalog and fetch agree on exactly the undotted names. -/
theorem fetches_listed_iff {name : String} (stem : IsStem name) :
    (∀ (d : RomDirectory) (files : FileTree) (bytes : List UInt8), d.Lists files name bytes →
      ∃ description notices,
        d.fetch files name = ⟨.ok ⟨name, bytes, description⟩, notices⟩ ∧
        ∀ (env : Environment M D S) (slot : Nat), env.catalog[slot]? = some name →
          (env.selectSlot slot).result = .ok () ∧
          ((env.selectSlot slot).environment.loader.workAll
              (RomRequest.answer (d.fetch files) files)).finished.getLast? =
            some (env.sessions.beginLoad.1, .ok ⟨name, bytes, description⟩)) ↔
      Undotted name := by
  constructor
  · intro h
    by_contra dotted
    -- a directory with nothing in it but the file of that name
    obtain ⟨cause, hread⟩ := read_dotted stem dotted
    obtain ⟨description, notices, hfetch, -⟩ := h _ _ _ (lists_shelf stem)
    have hfailed : (fetch ⟨⟨roms⟩⟩ (shelf name.toList) name).result = .error (.romFetch name cause) := by
      unfold fetch
      rw [hread]
    rw [hfetch] at hfailed
    cases hfailed
  · intro undotted d files bytes lists
    obtain ⟨description, notices, hfetch⟩ := fetch_undotted stem undotted lists
    refine ⟨description, notices, hfetch, fun env slot hslot => ?_⟩
    obtain ⟨hresult, hlast⟩ := selectSlot_answer env hslot (RomRequest.answer (d.fetch files) files)
    refine ⟨hresult, hlast.trans ?_⟩
    simp only [RomRequest.answer, hfetch]

/-- The name `pong` has no dot in it and may stand in front of an extension, so that it is fetched wherever it
is listed. -/
theorem fetches_listed_of_pong :
    IsStem "pong" ∧ Undotted "pong" ∧ ∀ (d : RomDirectory) (files : FileTree) (bytes : List UInt8),
      d.Lists files "pong" bytes → ∃ rom notices, d.fetch files "pong" = ⟨.ok rom, notices⟩ ∧
        rom.bytes = bytes := by
  have stem : IsStem "pong" := ⟨by decide, by decide, by decide, by decide⟩
  have undotted : Undotted "pong" := by decide
  refine ⟨stem, undotted, fun d files bytes lists => ?_⟩
  obtain ⟨description, notices, hfetch, -⟩ :=
    (fetches_listed_iff ScriptedMachine RecordingDisplay Mute stem).mpr undotted d files bytes lists
  exact ⟨_, notices, hfetch, rfl⟩

/-- An image whose name has a dot in it is listed and cannot be fetched. -/
theorem dotted_not_fetched :
    let d : RomDirectory := ⟨.ofString "roms"⟩
    let files := FileTree.ofPaths [(.ofString "roms/a.b.ch8", .file [0x12, 0x00])]
    d.Lists files "a.b" [0x12, 0x00] ∧
      (d.fetch files "a.b").result = .error (.romFetch "a.b" .notFound) := by
  intro d files
  have hlist : files.list d.root = .ok ["a.b.ch8".toList] := by decide
  have hname : catalogName? "a.b.ch8".toList = some "a.b" := by decide
  have hcatalog : d.catalog files = .ok ["a.b"] := by
    rw [catalog, hlist]
    simp only [catalogOf, List.filterMap_cons, hname, List.filterMap_nil, List.mergeSort_singleton]
  refine ⟨⟨⟨["a.b"], hcatalog, List.mem_singleton_self _⟩, ?_, by decide⟩, ?_⟩
  · decide
  · decide

end RomDirectory

end Chip8Console
