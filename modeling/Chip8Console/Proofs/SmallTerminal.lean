import Chip8Console.Screen.TermDisplay
import Mathlib.Tactic.ByContra

/-!
A picture on a terminal that is too small for it. The whole picture is brought to the cells there are, and
nothing of it is cut off.
-/
namespace Chip8Console

def SurfaceLit (pixels : List Pixel) (width scale : Nat) (p : SurfacePoint) : Prop :=
  ∃ pixel, pixels[p.row / scale * width + p.column / scale]? = some pixel ∧ pixel ≠ 0

private theorem surfaceLit_pixelsLit {count place width scale : Nat} {p : SurfacePoint} :
    SurfaceLit (pixelsLit count [place]) width scale p ↔
      p.row / scale * width + p.column / scale = place ∧ place < count := by
  simp only [SurfaceLit, pixelsLit, List.foldl_cons, List.foldl_nil, Array.getElem?_toList,
    Array.getElem?_setIfInBounds, Array.size_replicate, Array.getElem?_replicate]
  by_cases hplace : place = p.row / scale * width + p.column / scale
  · subst hplace
    by_cases hlt : p.row / scale * width + p.column / scale < count <;> simp [hlt]
  · simp [hplace, Ne.symm hplace]

private theorem mem_litBlocks {pixels : List Pixel} {width scale : Nat} {b : Block} :
    b ∈ litBlocks pixels width scale ↔ ∃ i pixel, pixels[i]? = some pixel ∧ pixel ≠ 0 ∧
      b = ⟨i % width * scale, i / width * scale, scale⟩ := by
  simp only [litBlocks, List.mem_filterMap, Prod.exists, List.mk_mem_zipIdx_iff_getElem?]
  constructor
  · rintro ⟨pixel, i, hpixel, hblock⟩
    simp only [Option.ite_none_left_eq_some, Option.some.injEq] at hblock
    exact ⟨i, pixel, hpixel, hblock.1, hblock.2.symm⟩
  · rintro ⟨i, pixel, hpixel, hlit, rfl⟩
    exact ⟨pixel, i, hpixel, if_neg hlit⟩

section
variable {width height scale : Nat} {pixels : List Pixel}

/-- A cell of the block of a pixel tells the place of the pixel. -/
theorem place_of_mem_blockPoints {surface : Resolution} {i : Nat} {p : SurfacePoint}
    (h : p ∈ surface.blockPoints ⟨i % width * scale, i / width * scale, scale⟩) :
    p.row / scale * width + p.column / scale = i := by
  obtain ⟨⟨hleft, hright, -⟩, htop, hbottom, -⟩ := (surface.mem_blockPoints _ p).mp h
  have hx : p.column / scale = i % width :=
    Nat.div_eq_of_lt_le hleft ((Nat.add_one_mul _ _).symm ▸ hright)
  have hy : p.row / scale = i / width :=
    Nat.div_eq_of_lt_le htop ((Nat.add_one_mul _ _).symm ▸ hbottom)
  rw [hx, hy, Nat.div_add_mod']

/-- The blocks of the lit pixels cover the cells that belong to one. -/
theorem mem_blockPoints_litBlocks {surface : Resolution}
    (hsurface : surface = ⟨width * scale, height * scale⟩) (p : SurfacePoint) :
    (∃ b ∈ litBlocks pixels width scale, p ∈ surface.blockPoints b) ↔
      p.column < width * scale ∧ p.row < height * scale ∧ SurfaceLit pixels width scale p := by
  subst hsurface
  simp only [mem_litBlocks]
  constructor
  · rintro ⟨_, ⟨i, pixel, hpixel, hlit, rfl⟩, hmem⟩
    obtain ⟨⟨-, -, hcolumn⟩, -, -, hrow⟩ := (Resolution.mem_blockPoints _ _ p).mp hmem
    exact ⟨hcolumn, hrow, pixel, by rw [place_of_mem_blockPoints hmem]; exact hpixel, hlit⟩
  · rintro ⟨hcolumn, hrow, pixel, hpixel, hlit⟩
    have hscale : 0 < scale := Nat.pos_of_mul_pos_left (Nat.zero_lt_of_lt hcolumn)
    have hx : p.column / scale < width := Nat.div_lt_of_lt_mul (Nat.mul_comm _ _ ▸ hcolumn)
    have hplace : (p.row / scale * width + p.column / scale) % width = p.column / scale := by
      rw [Nat.mul_add_mod', Nat.mod_eq_of_lt hx]
    have hline : (p.row / scale * width + p.column / scale) / width = p.row / scale :=
      Nat.div_eq_of_lt_le (Nat.le_add_right _ _) (by rw [Nat.add_one_mul]; omega)
    refine ⟨_, ⟨_, pixel, hpixel, hlit, rfl⟩, (Resolution.mem_blockPoints _ _ p).mpr ?_⟩
    rw [hplace, hline]
    exact ⟨⟨Nat.div_mul_le_self _ _, Nat.lt_div_mul_add hscale, hcolumn⟩,
      Nat.div_mul_le_self _ _, Nat.lt_div_mul_add hscale, hrow⟩

end

namespace TermDisplay

private theorem foldl_paint_eq (d : TermDisplay) {blocks : List Block}
    (words : ∀ b ∈ blocks, b.column + b.size < Word.limit ∧ b.row + b.size < Word.limit) :
    blocks.foldl Display.paint d =
      { d with points := d.points ++ blocks.flatMap d.surface.blockPoints } := by
  induction blocks generalizing d with
  | nil => rw [List.foldl_nil, List.flatMap_nil, Array.appendList_nil]
  | cons b rest ih =>
    have hchecked : d.surface.checkedPoints b = .ok (d.surface.blockPoints b) := by
      obtain ⟨hcolumn, hrow⟩ := words b List.mem_cons_self
      simp only [Resolution.checkedPoints, Word.add, if_pos hcolumn, if_pos hrow]
      split <;> rfl
    have hpaint : Display.paint d b = { d with points := d.points ++ d.surface.blockPoints b } := by
      simp only [Display.paint, hchecked]
    have happend (first second : List SurfacePoint) :
        d.points ++ first ++ second = d.points ++ (first ++ second) :=
      Array.toList_inj.mp (by simp only [Array.toList_appendList, List.append_assoc])
    rw [List.foldl_cons, hpaint, ih _ fun b hb => words b (List.mem_cons_of_mem _ hb),
      List.flatMap_cons, happend]

end TermDisplay

namespace Picture
variable {area : Area} {surface : Resolution}

private theorem foldl_fill (points : List SurfacePoint) (cells : Array Bool) (n : Nat) :
    ((points.foldl (fun cells p => match cell? area surface p with
        | some n => cells.setIfInBounds n true
        | none => cells) cells)[n]?).getD false = true ↔
      (cells[n]?).getD false = true ∨ n < cells.size ∧ ∃ p ∈ points, cell? area surface p = some n := by
  induction points generalizing cells with
  | nil => simp
  | cons p rest ih =>
    rw [List.foldl_cons, ih]
    cases hcell : cell? area surface p with
    | none => simp [hcell]
    | some place =>
      simp only [Array.size_setIfInBounds, List.mem_cons, exists_eq_or_imp, hcell, Option.some.injEq]
      by_cases hplace : place = n
      · subst hplace
        by_cases hlt : place < cells.size
        · simp [hlt]
        · simp [hlt]
      · simp [Array.getElem?_setIfInBounds_ne, hplace]

private theorem cell?_eq_some_iff {p : SurfacePoint} {column row : Nat}
    (hcolumn : column < inner area.width) (hrow : row < inner area.height) :
    cell? area surface p = some (row * inner area.width + column) ↔
      place? surface.width (inner area.width) p.column = some column ∧
        place? surface.height (inner area.height) p.row = some row := by
  unfold cell?
  constructor
  · intro h
    split at h
    · next column' row' hx hy =>
      split at h
      · next inside =>
        have hnumber : row' * inner area.width + column' = row * inner area.width + column :=
          Option.some.inj h
        have hcolumns : column' = column := by
          have := congrArg (· % inner area.width) hnumber
          simpa only [Nat.mul_add_mod', Nat.mod_eq_of_lt inside.1, Nat.mod_eq_of_lt hcolumn] using this
        subst hcolumns
        have hrows : row' = row :=
          Nat.eq_of_mul_eq_mul_right (Nat.zero_lt_of_lt hcolumn) (Nat.add_right_cancel hnumber)
        exact ⟨hx, hrows ▸ hy⟩
      · cases h
    · cases h
  · rintro ⟨hx, hy⟩
    simp only [hx, hy, hcolumn, hrow, and_self, if_true]

/-- A cell is filled exactly if some point is brought to its column and row. -/
theorem isFilled_fill {title : List Char} {points : Array SurfacePoint} {column row : Nat}
    (hcolumn : column < inner area.width) (hrow : row < inner area.height) :
    isFilled ⟨area, title, fill area surface points⟩ column row = true ↔
      ∃ p ∈ points, place? surface.width (inner area.width) p.column = some column ∧
        place? surface.height (inner area.height) p.row = some row := by
  have hinside : row * inner area.width + column < inner area.width * inner area.height := by
    have := Nat.mul_le_mul_right (inner area.width) (Nat.succ_le_of_lt hrow)
    rw [Nat.succ_mul, Nat.mul_comm (inner area.height)] at this
    omega
  rw [isFilled, fill, ← Array.foldl_toList]
  refine (foldl_fill points.toList _ _).trans ?_
  simp [hinside, cell?_eq_some_iff hcolumn hrow]

private theorem charAt_inside (p : Picture) {column row : Nat} (hcolumn : column < inner p.area.width)
    (hrow : row < inner p.area.height) :
    p.charAt (column + 1) (row + 1) = fullCell ↔ p.isFilled column row = true := by
  unfold inner at hcolumn hrow
  rw [charAt, if_neg (by omega), if_neg (by omega), if_neg (by omega), Nat.add_sub_cancel,
    Nat.add_sub_cancel]
  split
  · next h => simp [h]
  · next h => simp [h, fullCell]

/-- Where a column or row of a surface with `count` of them falls among fewer `cells`. -/
def squeeze (count cells n : Nat) : Nat := n * (cells - 1) / (count - 1)

/-- On a surface that fits on a terminal screen rounding does not show. -/
theorem place?_eq_squeeze {count cells n : Nat} (hcount : 2 ≤ count) (hlimit : count ≤ Area.limit)
    (hcells : cells ≤ count) (hn : n < count) : place? count cells n = some (squeeze count cells n) := by
  have hproduct : n * (cells - 1) ≤ Area.limit * Area.limit :=
    Nat.mul_le_mul (by omega) (by omega)
  have hexact : n * (cells - 1) + (count - 1) < Number.BinaryFormat.exactLimit Number.double := by
    have hlimits : Area.limit * Area.limit + Area.limit <
        Number.BinaryFormat.exactLimit Number.double := by decide
    omega
  rw [place?, if_neg (by omega), Number.BinaryFormat.floorScaled, if_pos hexact]
  rfl

private theorem squeeze_lt {count cells n : Nat} (hcount : 2 ≤ count) (hcells : 0 < cells)
    (hn : n < count) :
    squeeze count cells n < cells := by
  have hle : squeeze count cells n ≤ cells - 1 :=
    Nat.div_le_of_le_mul (Nat.mul_le_mul_right _ (by omega))
  omega

theorem squeeze_self {count n : Nat} (hcount : 2 ≤ count) : squeeze count count n = n :=
  Nat.mul_div_cancel n (by omega)

private theorem squeeze_lt_self {count cells n : Nat} (hfewer : cells < count) (hcells : 0 < cells)
    (hn : 0 < n) : squeeze count cells n < n := by
  refine Nat.div_lt_of_lt_mul ?_
  rw [Nat.mul_comm]
  exact Nat.mul_lt_mul_of_pos_right (by omega) hn

private theorem squeeze_div {count cells scale n : Nat} (hcount : 2 ≤ count) (hcells : 0 < cells)
    (hle : cells ≤ count) (h : cells = count ∨ count = scale) (hn : n < count) :
    squeeze count cells n / scale = n / scale := by
  rcases h with rfl | rfl
  · rw [squeeze_self hcount]
  · have hlt := Nat.lt_of_lt_of_le (squeeze_lt hcount hcells hn) hle
    rw [Nat.div_eq_of_lt hlt, Nat.div_eq_of_lt hn]

private theorem exists_squeeze {count cells : Nat} (hcount : 2 ≤ count) (hcells : cells ≤ count) {c : Nat}
    (hc : c < cells) : ∃ n < count, squeeze count cells n = c := by
  unfold squeeze
  obtain ⟨a, rfl⟩ : ∃ a, cells = a + 1 := ⟨cells - 1, by omega⟩
  obtain ⟨b, rfl⟩ : ∃ b, count = b + 1 := ⟨count - 1, by omega⟩
  simp only [Nat.add_sub_cancel]
  by_cases ha : a = 0
  · refine ⟨0, by omega, ?_⟩
    rw [Nat.zero_mul, Nat.zero_div]
    omega
  · have ha : 0 < a := Nat.pos_of_ne_zero ha
    -- the first column at or past the exact one
    let n := (c * b + (a - 1)) / a
    have hlow : c * b + (a - 1) < n * a + a := Nat.lt_div_mul_add ha
    have hhigh : n * a ≤ c * b + (a - 1) := Nat.div_mul_le_self _ _
    have hlast : c * b ≤ a * b := Nat.mul_le_mul_right b (by omega)
    refine ⟨n, ?_, Nat.div_eq_of_lt_le (by omega) (by rw [Nat.add_one_mul]; omega)⟩
    refine Nat.lt_of_mul_lt_mul_right (a := a) ?_
    rw [Nat.add_one_mul, Nat.mul_comm b a]
    omega

end Picture

namespace TermDisplay

/-- A screen for pictures of this size that its terminal has accepted every drawing of. The picture with
its frame has no more cells than a terminal screen, and there is room inside the frame. -/
structure Ready (d : TermDisplay) (width height scale : Nat) : Prop where
  surface : d.surface = ⟨width * scale, height * scale⟩
  wide : 2 ≤ width * scale
  high : 2 ≤ height * scale
  holds : (2 + width * scale) * (2 + height * scale) ≤ Area.limit
  columns : 3 ≤ d.terminal.width
  rows : 3 ≤ d.terminal.height
  accepts : d.drawing = .ok ()
  settled : d.refused = #[]
  faultless : d.fault = none

/-- The room that a picture of this size takes in the terminal, its frame included. -/
def room (d : TermDisplay) (width height scale : Nat) : Area :=
  Area.meet ⟨2 + width * scale, 2 + height * scale⟩ d.terminal

private theorem inner_room_le (d : TermDisplay) (width height scale : Nat) :
    Picture.inner (d.room width height scale).width ≤ width * scale ∧
      Picture.inner (d.room width height scale).height ≤ height * scale := by
  simp only [room, Area.meet, Picture.inner]
  omega

/-- A screen for pictures of this size, whatever became of the drawings so far. -/
structure Framed (d : TermDisplay) (width height scale : Nat) : Prop where
  surface : d.surface = ⟨width * scale, height * scale⟩
  wide : 2 ≤ width * scale
  high : 2 ≤ height * scale
  holds : (2 + width * scale) * (2 + height * scale) ≤ Area.limit
  columns : 3 ≤ d.terminal.width
  rows : 3 ≤ d.terminal.height

variable {d : TermDisplay} {width height scale : Nat} {pixels : List Pixel}

private theorem Ready.framed (ready : d.Ready width height scale) : d.Framed width height scale :=
  ⟨ready.surface, ready.wide, ready.high, ready.holds, ready.columns, ready.rows⟩

/-- The sides of a framed picture are within the limit of an area. -/
theorem Framed.sides (framed : d.Framed width height scale) :
    width * scale ≤ Area.limit ∧ height * scale ≤ Area.limit := by
  have hwidth := Nat.le_mul_of_pos_right (2 + width * scale) (by omega : 0 < 2 + height * scale)
  have hheight := Nat.le_mul_of_pos_left (2 + height * scale) (by omega : 0 < 2 + width * scale)
  have := framed.holds
  omega

private theorem Framed.words (framed : d.Framed width height scale)
    (hpixels : pixels.length = width * height) :
    ∀ b ∈ litBlocks pixels width scale,
      b.column + b.size < Word.limit ∧ b.row + b.size < Word.limit := by
  intro b hb
  obtain ⟨i, pixel, hpixel, -, rfl⟩ := mem_litBlocks.mp hb
  obtain ⟨hi, -⟩ := List.getElem?_eq_some_iff.mp hpixel
  rw [hpixels] at hi
  have hwidth : 0 < width := Nat.pos_of_mul_pos_right (Nat.zero_lt_of_lt hi)
  have hcolumn := Nat.mul_le_mul_right scale (Nat.succ_le_of_lt (Nat.mod_lt i hwidth))
  have hrow := Nat.mul_le_mul_right scale (Nat.succ_le_of_lt (Nat.div_lt_of_lt_mul hi))
  rw [Nat.succ_mul] at hcolumn hrow
  obtain ⟨hw, hh⟩ := framed.sides
  simp only [Area.limit, Word.limit] at hw hh ⊢
  omega

/-- A framed screen draws the points painted over those of refused drawings, in the room there is. -/
theorem Framed.picture (framed : d.Framed width height scale) : d.picture =
    .ok ⟨d.room width height scale, Picture.titleCells d.title.toList,
      Picture.fill (d.room width height scale) d.surface (d.refused ++ d.points)⟩ := by
  obtain ⟨terminal, surface, points, refused, title, shown, drawing, fault⟩ := d
  obtain ⟨rfl, hwide, hhigh, hholds, hcolumns, hrows⟩ := framed
  simp only at hcolumns hrows
  have harea : Resolution.area ⟨width * scale, height * scale⟩ =
      .ok ⟨2 + width * scale, 2 + height * scale⟩ := Resolution.area_eq_ok hholds
  have hbefore {n : Nat} (h : n ≠ 0) : Word.before n = .ok (n - 1) := if_neg h
  have hinner {side other : Nat} (h : 2 ≤ side) (h' : 3 ≤ other) :
      Picture.inner (min (2 + side) other) ≠ 0 := by
    unfold Picture.inner
    omega
  simp only [TermDisplay.picture, harea, Resolution.xBounds, Resolution.yBounds,
    hbefore (by omega : width * scale ≠ 0), hbefore (by omega : height * scale ≠ 0)]
  simp [Picture.ofPoints, room, Area.meet, hbefore (hinner hwide hcolumns),
    hbefore (hinner hhigh hrows), bind, Except.bind, pure, Except.pure, Except.map]

/-- Showing a picture leaves just its own points to be drawn. -/
theorem Framed.showPixels (framed : d.Framed width height scale)
    (hpixels : pixels.length = width * height) : Display.showPixels d pixels width scale =
      .ok (d.drawing, TermDisplay.draw { d with
        points := ((litBlocks pixels width scale).flatMap d.surface.blockPoints).toArray }) := by
  have hwords := framed.words hpixels
  have hwidth : width ≠ 0 := by
    rintro rfl
    have := framed.wide
    omega
  have hplaced : ∀ b ∈ litBlocks pixels width scale, b.isPlaced = true := by
    intro b hb
    obtain ⟨hcolumn, hrow⟩ := hwords b hb
    exact decide_eq_true ⟨by omega, by omega⟩
  rw [Display.showPixels_eq_ok d pixels width scale hwidth hplaced, Display.showBlocks,
    foldl_paint_eq (Display.clear d) hwords]
  exact congrArg (fun points => Except.ok (d.drawing, TermDisplay.draw { d with points }))
    (Array.toList_inj.mp Array.toList_appendList)

private theorem Ready.draw (ready : d.Ready width height scale) (points : Array SurfacePoint) :
    TermDisplay.draw { d with points } = { d with
      points
      shown := some ⟨d.room width height scale, Picture.titleCells d.title.toList,
        Picture.fill (d.room width height scale) d.surface points⟩ } := by
  have framed : Framed { d with points } width height scale := { ready.framed with }
  rw [TermDisplay.draw, framed.picture]
  obtain ⟨terminal, surface, painted, refused, title, shown, drawing, fault⟩ := d
  obtain ⟨-, -, -, -, -, -, rfl, rfl, -⟩ := ready
  simp only [Array.empty_append]
  rfl

/-- Whether the cell inside the frame at this column and row is seen filled. -/
def Fills (d : TermDisplay) (column row : Nat) : Prop :=
  ∃ p, d.shown = some p ∧ p.charAt (column + 1) (row + 1) = Picture.fullCell

/-- A cell is seen filled exactly if it is filled in the picture that was drawn last. -/
theorem fills_iff {p : Picture} (hshown : d.shown = some p) {column row : Nat}
    (hcolumn : column < Picture.inner p.area.width) (hrow : row < Picture.inner p.area.height) :
    d.Fills column row ↔ p.isFilled column row = true := by
  rw [← p.charAt_inside hcolumn hrow, Fills]
  constructor
  · rintro ⟨p', hp', h⟩
    obtain rfl := Option.some.inj (hshown.symm.trans hp')
    exact h
  · exact fun h => ⟨p, hshown, h⟩

/-- The whole picture is seen, each of its cells moved to the left and up in proportion. -/
def ShowsSqueezed (d : TermDisplay) (pixels : List Pixel) (width height scale : Nat) (room : Area) :
    Prop :=
  ∀ column < Picture.inner room.width, ∀ row < Picture.inner room.height,
    (d.Fills column row ↔ ∃ p : SurfacePoint, p.column < width * scale ∧ p.row < height * scale ∧
      SurfaceLit pixels width scale p ∧
      Picture.squeeze (width * scale) (Picture.inner room.width) p.column = column ∧
      Picture.squeeze (height * scale) (Picture.inner room.height) p.row = row)

/-- As much of the picture is seen as there is room for, each cell of it in its place. -/
def ShowsCropped (d : TermDisplay) (pixels : List Pixel) (width scale : Nat) (room : Area) : Prop :=
  ∀ column < Picture.inner room.width, ∀ row < Picture.inner room.height,
    (d.Fills column row ↔ SurfaceLit pixels width scale ⟨column, row⟩)

/-- A picture is always squeezed into the room there is. -/
theorem Ready.squeezes (ready : d.Ready width height scale)
    (hpixels : pixels.length = width * height) :
    ∃ d', Display.showPixels d pixels width scale = .ok (.ok (), d') ∧ d'.fault = none ∧
      d'.ShowsSqueezed pixels width height scale (d.room width height scale) := by
  let points := ((litBlocks pixels width scale).flatMap d.surface.blockPoints).toArray
  have hshow : Display.showPixels d pixels width scale =
      .ok (.ok (), TermDisplay.draw { d with points }) := by
    rw [ready.framed.showPixels hpixels, ready.accepts]
  refine ⟨_, hshow, ?_, ?_⟩
  · rw [ready.draw points]
    exact ready.faultless
  · have hcovered (q : SurfacePoint) : q ∈ points ↔
        q.column < width * scale ∧ q.row < height * scale ∧ SurfaceLit pixels width scale q := by
      rw [List.mem_toArray, List.mem_flatMap]
      exact mem_blockPoints_litBlocks ready.surface q
    obtain ⟨hw, hh⟩ := ready.framed.sides
    intro column hcolumn row hrow
    rw [ready.draw points, fills_iff rfl hcolumn hrow, Picture.isFilled_fill hcolumn hrow,
      ready.surface]
    refine exists_congr fun q => ?_
    rw [hcovered, and_assoc, and_assoc]
    refine and_congr_right fun hx => and_congr_right fun hy => and_congr_right fun _ => ?_
    rw [Picture.place?_eq_squeeze ready.wide hw (d.inner_room_le width height scale).1 hx,
      Picture.place?_eq_squeeze ready.high hh (d.inner_room_le width height scale).2 hy,
      Option.some.injEq, Option.some.injEq]

private theorem Ready.inner_pos (ready : d.Ready width height scale) :
    0 < Picture.inner (d.room width height scale).width ∧
      0 < Picture.inner (d.room width height scale).height := by
  have := ready.wide
  have := ready.high
  have := ready.columns
  have := ready.rows
  simp only [room, Area.meet, Picture.inner]
  omega

variable (d width height scale) in
/-- Whatever picture of this size is shown is seen cropped. -/
def Crops : Prop :=
  ∀ pixels : List Pixel, pixels.length = width * height →
    ∀ d', Display.showPixels d pixels width scale = .ok (.ok (), d') →
      d'.ShowsCropped pixels width scale (d.room width height scale)

private theorem Ready.unmoved (ready : d.Ready width height scale) (crops : d.Crops width height scale)
    (p : SurfacePoint) (hcolumn : p.column < width * scale) (hrow : p.row < height * scale) :
    Picture.squeeze (height * scale) (Picture.inner (d.room width height scale).height) p.row /
          scale * width +
        Picture.squeeze (width * scale) (Picture.inner (d.room width height scale).width) p.column /
          scale = p.row / scale * width + p.column / scale := by
  let place := p.row / scale * width + p.column / scale
  have hplace : place < width * height := by
    have hx : p.column / scale < width := Nat.div_lt_of_lt_mul (Nat.mul_comm _ _ ▸ hcolumn)
    have hy : p.row / scale < height := Nat.div_lt_of_lt_mul (Nat.mul_comm _ _ ▸ hrow)
    have hlines := Nat.mul_le_mul_right width (Nat.succ_le_of_lt hy)
    rw [Nat.succ_mul, Nat.mul_comm height] at hlines
    omega
  -- the picture in which no pixel is lit but that of the cell
  have hpixels : (pixelsLit (width * height) [place]).length = width * height := by
    simp [pixelsLit]
  obtain ⟨d', hshow, -, hsqueezed⟩ := ready.squeezes hpixels
  obtain ⟨hw, hh⟩ := ready.inner_pos
  have hx := Picture.squeeze_lt ready.wide hw hcolumn
  have hy := Picture.squeeze_lt ready.high hh hrow
  have hfills := (hsqueezed _ hx _ hy).mpr
    ⟨p, hcolumn, hrow, surfaceLit_pixelsLit.mpr ⟨rfl, hplace⟩, rfl, rfl⟩
  exact (surfaceLit_pixelsLit.mp ((crops _ hpixels d' hshow _ hx _ hy).mp hfills)).1

private theorem squeeze_zero (count cells : Nat) : Picture.squeeze count cells 0 = 0 := by
  rw [Picture.squeeze, Nat.zero_mul, Nat.zero_div]

private theorem inner_min_eq_iff {count : Nat} (cells : Nat) (hcount : 2 ≤ count) :
    Picture.inner (min (2 + count) cells) = count ↔ count + 2 ≤ cells := by
  unfold Picture.inner
  omega

private theorem squeeze_second {n scale cells : Nat} (hside : 2 ≤ n * scale) (hn : n ≠ 1)
    (hcells : 0 < cells) (hfewer : cells < n * scale) :
    scale < n * scale ∧ Picture.squeeze (n * scale) cells scale / scale = 0 ∧ scale / scale = 1 := by
  -- a side of more than one pixel on too few cells has the second pixel begin on the first
  have hscale : 0 < scale := Nat.pos_of_mul_pos_left (Nat.lt_of_lt_of_le Nat.zero_lt_two hside)
  have hpos : 0 < n := Nat.pos_of_mul_pos_right (Nat.lt_of_lt_of_le Nat.zero_lt_two hside)
  have hdouble := Nat.mul_le_mul_right scale (show 2 ≤ n by omega)
  have hmoved := Picture.squeeze_lt_self hfewer hcells hscale
  exact ⟨by omega, Nat.div_eq_of_lt hmoved, Nat.div_self hscale⟩

/-- Pictures are seen cropped only where nothing is cut off or all that is cut off is alike. -/
theorem Ready.crops_iff (ready : d.Ready width height scale) : d.Crops width height scale ↔
    (width * scale + 2 ≤ d.terminal.width ∨ width = 1) ∧
      (height * scale + 2 ≤ d.terminal.height ∨ height = 1) := by
  obtain ⟨hw, hh⟩ := ready.inner_pos
  obtain ⟨hwle, hhle⟩ := d.inner_room_le width height scale
  have hwide := ready.wide
  have hhigh := ready.high
  constructor
  · intro crops
    constructor
    · by_contra small
      obtain ⟨hsmall, hwidth⟩ := not_or.mp small
      have hfewer := Nat.lt_of_le_of_ne hwle (mt (inner_min_eq_iff _ hwide).mp hsmall)
      obtain ⟨hlt, hmoved, hself⟩ := squeeze_second hwide hwidth hw hfewer
      have h := ready.unmoved crops ⟨scale, 0⟩ hlt (Nat.lt_of_lt_of_le Nat.zero_lt_two hhigh)
      rw [squeeze_zero, hmoved, hself, Nat.zero_div] at h
      omega
    · by_contra small
      obtain ⟨hsmall, hheight⟩ := not_or.mp small
      have hfewer := Nat.lt_of_le_of_ne hhle (mt (inner_min_eq_iff _ hhigh).mp hsmall)
      obtain ⟨hlt, hmoved, hself⟩ := squeeze_second hhigh hheight hh hfewer
      have h := ready.unmoved crops ⟨0, scale⟩ (Nat.lt_of_lt_of_le Nat.zero_lt_two hwide) hlt
      rw [squeeze_zero, hmoved, hself, Nat.zero_div] at h
      have hwidth : 0 < width := Nat.pos_of_mul_pos_right (Nat.lt_of_lt_of_le Nat.zero_lt_two hwide)
      omega
  · rintro ⟨hcolumns, hrows⟩ pixels hpixels d' hshow
    obtain ⟨d'', hshow', -, hsqueezed⟩ := ready.squeezes hpixels
    obtain rfl : d'' = d' := by
      rw [hshow] at hshow'
      cases hshow'
      rfl
    have across : Picture.inner (d.room width height scale).width = width * scale ∨
        width * scale = scale :=
      hcolumns.imp (inner_min_eq_iff _ hwide).mpr fun h => by rw [h, Nat.one_mul]
    have down : Picture.inner (d.room width height scale).height = height * scale ∨
        height * scale = scale :=
      hrows.imp (inner_min_eq_iff _ hhigh).mpr fun h => by rw [h, Nat.one_mul]
    have kept {x y : Nat} (hx : x < width * scale) (hy : y < height * scale) :
        SurfaceLit pixels width scale
          ⟨Picture.squeeze (width * scale) (Picture.inner (d.room width height scale).width) x,
            Picture.squeeze (height * scale) (Picture.inner (d.room width height scale).height) y⟩ ↔
          SurfaceLit pixels width scale ⟨x, y⟩ := by
      simp only [SurfaceLit, Picture.squeeze_div hwide hw hwle across hx,
        Picture.squeeze_div hhigh hh hhle down hy]
    intro column hcolumn row hrow
    rw [hsqueezed column hcolumn row hrow]
    constructor
    · rintro ⟨p, hx, hy, hlit, rfl, rfl⟩
      exact (kept hx hy).mpr hlit
    · intro hlit
      obtain ⟨x, hx, rfl⟩ := Picture.exists_squeeze hwide hwle hcolumn
      obtain ⟨y, hy, rfl⟩ := Picture.exists_squeeze hhigh hhle hrow
      exact ⟨⟨x, y⟩, hx, hy, (kept hx hy).mp hlit, rfl, rfl⟩

/-- On a terminal of any size the whole picture is seen, squeezed into the cells there are. So a terminal
that is too small for pictures of a size shows them cropped only if they have one pixel across where
columns are missing and one pixel down where rows are. This is said of pictures that have, with their frame,
at most `Area.limit` cells (`Ready.holds`); a larger one gets fewer cells than it asks for on any terminal, and
nothing is said of it. -/
theorem squeezed_not_cropped (ready : d.Ready width height scale) :
    (∀ pixels : List Pixel, pixels.length = width * height →
      ∃ d', Display.showPixels d pixels width scale = .ok (.ok (), d') ∧ d'.fault = none ∧
        d'.ShowsSqueezed pixels width height scale (d.room width height scale)) ∧
    (d.Crops width height scale ↔
      (width * scale + 2 ≤ d.terminal.width ∨ width = 1) ∧
        (height * scale + 2 ≤ d.terminal.height ∨ height = 1)) :=
  ⟨fun _ hpixels => ready.squeezes hpixels, ready.crops_iff⟩

/-- On three columns a picture of two pixels across and down is not seen cropped. -/
theorem squeezed_not_cropped_of_narrow :
    let d : TermDisplay := { terminal := ⟨3, 4⟩, surface := ⟨2, 2⟩ }
    ofPicture ⟨3, 4⟩ 2 2 1 = .ok d ∧ d.Ready 2 2 1 ∧ ¬d.Crops 2 2 1 := by
  intro d
  have ready : d.Ready 2 2 1 :=
    ⟨rfl, by decide, by decide, by decide, by decide, by decide, rfl, rfl, rfl⟩
  refine ⟨rfl, ready, fun crops => ?_⟩
  have h := (squeezed_not_cropped ready).2.mp crops
  exact absurd h (by decide)

/-- The right pixel of the upper row is seen in the only column there is, which is that of the left one. -/
theorem right_pixel_not_cut :
    let d : TermDisplay := { terminal := ⟨3, 4⟩, surface := ⟨2, 2⟩ }
    let pixels : List Pixel := [0, 1, 0, 0]
    ofPicture ⟨3, 4⟩ 2 2 1 = .ok d ∧
    ∃ d', Display.showPixels d pixels 2 1 = .ok (.ok (), d') ∧ d'.Fills 0 0 ∧
      ¬SurfaceLit pixels 2 1 ⟨0, 0⟩ := by
  refine ⟨rfl, _, rfl, ⟨_, rfl, by decide⟩, ?_⟩
  rintro ⟨pixel, hpixel, hlit⟩
  exact hlit (Option.some.inj hpixel).symm

end TermDisplay

end Chip8Console
