/-!
Paths as text. Components are set apart by slashes; the last one names the file, and what follows its
last dot is its extension. Slashes at the end and components that are a single dot count for nothing
there.
-/
namespace Chip8Console

abbrev FileName := List Char

namespace FileName

/-- A name cut at its last dot. A name whose only dot comes first has no extension; one that ends in a
dot has an empty one. -/
def splitExtension (name : FileName) : FileName × Option FileName :=
  let last := name.reverse.takeWhile (· != '.')
  match name.reverse.drop last.length with
  | [] => (name, none)
  | _ :: before =>
    if before.isEmpty then (name, none) else (before.reverse, some last.reverse)

def stem (name : FileName) : FileName := name.splitExtension.1

def extension? (name : FileName) : Option FileName := name.splitExtension.2

/-- A name with a dot behind its first character is cut at the last such dot. -/
theorem splitExtension_append {before after : FileName} (hbefore : before ≠ [])
    (hafter : '.' ∉ after) : splitExtension (before ++ '.' :: after) = (before, some after) := by
  have hreverse : (before ++ '.' :: after).reverse = after.reverse ++ '.' :: before.reverse := by
    simp
  have hlast : (after.reverse ++ '.' :: before.reverse).takeWhile (· != '.') = after.reverse := by
    rw [List.takeWhile_append_of_pos, List.takeWhile_cons_of_neg (by decide), List.append_nil]
    intro c hc
    have : c ≠ '.' := fun h => hafter (h ▸ List.mem_reverse.mp hc)
    simpa using this
  simp only [splitExtension, hreverse, hlast, List.drop_left]
  rw [if_neg (by simpa using hbefore), List.reverse_reverse, List.reverse_reverse]

/-- A name with a dot behind its first character, written as cut at the last one. -/
theorem exists_append_of_mem {name : FileName} (h : '.' ∈ name.drop 1) :
    ∃ before after, before ≠ [] ∧ '.' ∉ after ∧ name = before ++ '.' :: after := by
  cases name with
  | nil => cases h
  | cons c rest =>
    have hmem : '.' ∈ rest.reverse := List.mem_reverse.mpr h
    obtain ⟨after, before, hrest, hafter⟩ := List.eq_append_cons_of_mem hmem
    refine ⟨c :: before.reverse, after.reverse, List.cons_ne_nil _ _, mt List.mem_reverse.mp hafter, ?_⟩
    rw [← List.reverse_reverse rest, hrest]
    simp

/-- A name with a dot behind its first character has an extension. -/
theorem extension?_isSome_of_mem {name : FileName} (h : '.' ∈ name.drop 1) :
    name.extension?.isSome = true := by
  obtain ⟨before, after, hbefore, hafter, rfl⟩ := exists_append_of_mem h
  rw [extension?, splitExtension_append hbefore hafter]
  rfl

/-- A name without a dot behind its first character has no extension. -/
theorem splitExtension_of_notMem {name : FileName} (h : '.' ∉ name.drop 1) :
    splitExtension name = (name, none) := by
  cases name with
  | nil => rfl
  | cons c rest =>
    have hrest : ∀ other ∈ rest.reverse, (other != '.') = true := by
      intro other hother
      have : other ≠ '.' := fun hh => h (hh ▸ List.mem_reverse.mp hother)
      simpa using this
    simp only [splitExtension, List.reverse_cons]
    rw [List.takeWhile_append_of_pos hrest]
    by_cases hc : c = '.'
    · subst hc
      simp
    · have hnothing : (rest.reverse ++ [c]).drop (rest.length + 1) = [] :=
        List.drop_eq_nil_of_le (by simp)
      simp [hc, hnothing]

/-- A stem and an extension together are the name, with a dot between them. -/
theorem splitExtension_eq_some_iff {name stem extension : FileName} :
    name.splitExtension = (stem, some extension) ↔
      stem ≠ [] ∧ '.' ∉ extension ∧ name = stem ++ '.' :: extension := by
  constructor
  · intro h
    by_cases hmem : '.' ∈ name.drop 1
    · obtain ⟨before, after, hbefore, hafter, rfl⟩ := exists_append_of_mem hmem
      rw [splitExtension_append hbefore hafter] at h
      cases h
      exact ⟨hbefore, hafter, rfl⟩
    · rw [splitExtension_of_notMem hmem] at h
      cases h
  · rintro ⟨hstem, hextension, rfl⟩
    exact splitExtension_append hstem hextension

def byteLength (name : FileName) : Nat := name.foldl (fun bytes c => bytes + c.utf8Size) 0

/-- The bytes of a name add up over its parts. -/
theorem byteLength_append (name other : FileName) :
    byteLength (name ++ other) = byteLength name + byteLength other := by
  have hfrom (start : Nat) : other.foldl (fun bytes c => bytes + c.utf8Size) start =
      start + byteLength other := by
    unfold byteLength
    induction other generalizing start with
    | nil => rfl
    | cons c rest ih =>
      rw [List.foldl_cons, List.foldl_cons, ih, ih (0 + c.utf8Size)]
      omega
  rw [byteLength, List.foldl_append, hfrom]
  rfl

end FileName

structure Path where
  chars : List Char
deriving DecidableEq, Repr

namespace Path

def ofString (text : String) : Path := ⟨text.toList⟩

def text (p : Path) : String := String.ofList p.chars

def splitSlashes : List Char → List FileName
  | [] => [[]]
  | c :: rest =>
    if c = '/' then [] :: splitSlashes rest
    else match splitSlashes rest with
      | [] => [[c]]
      | first :: others => (c :: first) :: others

/-- Text without a slash is a single component. -/
theorem splitSlashes_of_notMem {name : FileName} (h : '/' ∉ name) : splitSlashes name = [name] := by
  induction name with
  | nil => rfl
  | cons c rest ih =>
    rw [List.mem_cons, not_or] at h
    rw [splitSlashes, if_neg (Ne.symm h.1), ih h.2]

/-- The components as written, empty ones and single dots included. -/
def components (p : Path) : List FileName := splitSlashes p.chars

def isAbsolute (p : Path) : Bool := p.chars.head? == some '/'

/-- A path taken from this one. An absolute path stands for itself. -/
def join (p other : Path) : Path :=
  if other.isAbsolute || p.chars.isEmpty then other
  else if p.chars.getLast? == some '/' then ⟨p.chars ++ other.chars⟩
  else ⟨p.chars ++ '/' :: other.chars⟩

/-- What is taken from a path is written behind a beginning that belongs to the path. -/
theorem join_relative (p : Path) : ∃ before, (before = [] ∨ before.getLast? = some '/') ∧
    ∀ other : Path, other.isAbsolute = false → p.join other = ⟨before ++ other.chars⟩ := by
  by_cases hempty : p.chars.isEmpty = true
  · refine ⟨[], .inl rfl, fun other hother => ?_⟩
    simp [join, hother, hempty]
  · by_cases hslash : p.chars.getLast? = some '/'
    · refine ⟨p.chars, .inr hslash, fun other hother => ?_⟩
      simp [join, hother, hempty, hslash]
    · refine ⟨p.chars ++ ['/'], .inr (by simp), fun other hother => ?_⟩
      simp [join, hother, hempty, hslash]

private def dropInsignificant : List Char → List Char
  | '/' :: rest => dropInsignificant rest
  | '.' :: '/' :: rest => dropInsignificant rest
  | rest => rest

/-- The path cut in front of its last component that counts: what comes before, and that component. A
path has none if it ends in two dots or consists of slashes and single dots alone. -/
def splitFileName? (p : Path) : Option (List Char × FileName) :=
  let significant := dropInsignificant p.chars.reverse
  let name := significant.takeWhile (· != '/')
  if name.isEmpty || name == ['.'] || name == ['.', '.'] then none
  else some ((significant.drop name.length).reverse, name.reverse)

private theorem dropInsignificant_reverse (before : List Char) {name : FileName} (hslash : '/' ∉ name)
    (hname : name ≠ []) (hdot : name ≠ ['.']) :
    dropInsignificant (before ++ name).reverse = name.reverse ++ before.reverse := by
  have hmem (c : Char) (hc : c ∈ name.reverse) : c ≠ '/' := fun h =>
    hslash (h ▸ List.mem_reverse.mp hc)
  rw [List.reverse_append]
  unfold dropInsignificant
  split
  · next rest h =>
    cases hreverse : name.reverse with
    | nil => exact absurd (List.reverse_eq_nil_iff.mp hreverse) hname
    | cons c more =>
      rw [hreverse, List.cons_append, List.cons.injEq] at h
      exact absurd h.1 (hmem c (hreverse ▸ List.mem_cons_self))
  · next rest h =>
    match hreverse : name.reverse with
    | [] => exact absurd (List.reverse_eq_nil_iff.mp hreverse) hname
    | [c] =>
      rw [hreverse, List.cons_append, List.cons.injEq] at h
      obtain rfl := h.1
      exact absurd (List.reverse_eq_iff.mp hreverse) hdot
    | c :: d :: more =>
      simp only [hreverse, List.cons_append, List.cons.injEq] at h
      exact absurd h.2.1 (hmem d (hreverse ▸ List.mem_cons_of_mem _ List.mem_cons_self))
  · rfl

private theorem takeWhile_reverse {before : List Char} {name : FileName}
    (hbefore : before = [] ∨ before.getLast? = some '/') (hslash : '/' ∉ name) :
    (name.reverse ++ before.reverse).takeWhile (· != '/') = name.reverse := by
  have hplain : ∀ c ∈ name.reverse, (c != '/') = true := by
    intro c hc
    have : c ≠ '/' := fun h => hslash (h ▸ List.mem_reverse.mp hc)
    simpa using this
  rw [List.takeWhile_append_of_pos hplain]
  rcases hbefore with rfl | hbefore
  · simp
  · rw [← List.head?_reverse] at hbefore
    cases hreverse : before.reverse with
    | nil => simp
    | cons c more =>
      rw [hreverse] at hbefore
      obtain rfl := Option.some.inj hbefore
      rw [List.takeWhile_cons_of_neg (by decide), List.append_nil]

/-- A last component that is written as such and is no dots. -/
theorem splitFileName?_append {before : List Char} {name : FileName}
    (hbefore : before = [] ∨ before.getLast? = some '/') (hslash : '/' ∉ name) (hname : name ≠ [])
    (hdot : name ≠ ['.']) (hdots : name ≠ ['.', '.']) :
    splitFileName? ⟨before ++ name⟩ = some (before, name) := by
  have hkept : ¬(name.reverse.isEmpty || name.reverse == ['.'] || name.reverse == ['.', '.']) = true := by
    simp [hname, hdot, hdots]
  simp only [splitFileName?, dropInsignificant_reverse before hslash hname hdot,
    takeWhile_reverse hbefore hslash, List.drop_left, List.reverse_reverse, if_neg hkept]

def fileName? (p : Path) : Option FileName := p.splitFileName?.map Prod.snd

def stem? (p : Path) : Option FileName := p.fileName?.map FileName.stem

def extension? (p : Path) : Option FileName := p.fileName?.bind FileName.extension?

/-- The path with another extension, or one where there was none. What followed the file's name is
dropped; a path that names no file stays as it is. A path that ends in two dots and an extension loses
the extension and then names no file, so that it takes no other. -/
def withExtension (p : Path) (extension : FileName) : Path :=
  match p.splitFileName? with
  | none => p
  | some (before, name) =>
    if name.stem = ['.'] ∧ before ++ name = p.chars then ⟨before ++ ['.', '.']⟩
    else ⟨before ++ name.stem ++ '.' :: extension⟩

/-- The extension of a path is that of its last component. -/
theorem extension?_append {before : List Char} {name : FileName}
    (h : splitFileName? ⟨before ++ name⟩ = some (before, name)) :
    extension? ⟨before ++ name⟩ = name.extension? := by
  simp [extension?, fileName?, h]

/-- Another extension replaces what comes behind the stem of the last component. -/
theorem withExtension_append {before : List Char} {name : FileName}
    (h : splitFileName? ⟨before ++ name⟩ = some (before, name)) (hdot : name.stem ≠ ['.'])
    (extension : FileName) :
    withExtension ⟨before ++ name⟩ extension = ⟨before ++ (name.stem ++ '.' :: extension)⟩ := by
  simp [withExtension, h, hdot]

/-- Where a component leads from a place in which every name is the name of a directory: an empty one and
a single dot stay, two dots go up. -/
def step (place : List FileName) (name : FileName) : List FileName :=
  if name = [] ∨ name = ['.'] then place
  else if name = ['.', '.'] then place.dropLast
  else place ++ [name]

/-- The places that these components set out from, one for each, the first of them from `place`. -/
def stops (place : List FileName) : List FileName → List (List FileName)
  | [] => []
  | name :: rest => place :: stops (step place name) rest

/-- The places that a path leads through on the way from the root, its end left out. -/
def through (p : Path) : List (List FileName) := stops [] p.components

/-- The place that a path leads to where every component but the dots is the name of a directory. -/
def place (p : Path) : List FileName := p.components.foldl step []

end Path

end Chip8Console
