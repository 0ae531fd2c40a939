import Chip8Console.Proofs.ScreenUse
import Mathlib.Data.List.Nodup

/-!
A picture on a terminal that has room for it. Each of its cells is seen in its place and none is seen
besides, unless drawings that the terminal refused are still to be seen under it.
-/
namespace Chip8Console

section
variable {width height scale : Nat} {pixels : List Pixel}

/-- The blocks of a picture do not overlap. -/
theorem pairwise_disjoint_litBlocks (surface : Resolution) : (litBlocks pixels width scale).Pairwise
    fun b b' => List.Disjoint (surface.blockPoints b) (surface.blockPoints b') := by
  -- a cell tells the place of its pixel, so blocks that share a cell are of one pixel
  have hplaces : pixels.zipIdx.Pairwise fun a b => a.2 < b.2 := by
    rw [← List.pairwise_map, List.zipIdx_map_snd]
    exact List.pairwise_lt_range'
  rw [litBlocks, List.pairwise_filterMap]
  refine hplaces.imp fun {a b} hlt block hblock block' hblock' p hp hp' => ?_
  simp only [Option.ite_none_left_eq_some, Option.some.injEq] at hblock hblock'
  obtain ⟨-, rfl⟩ := hblock
  obtain ⟨-, rfl⟩ := hblock'
  have hplace := (place_of_mem_blockPoints hp).symm.trans (place_of_mem_blockPoints hp')
  exact absurd hplace (Nat.ne_of_lt hlt)

private theorem nodup_blockPoints (surface : Resolution) (b : Block) : (surface.blockPoints b).Nodup := by
  rw [Resolution.blockPoints, List.nodup_flatMap]
  refine ⟨fun row _ => ?_, ?_⟩
  · exact List.Nodup.map (fun x y h => (SurfacePoint.mk.inj h).1) List.nodup_range'
  · refine List.Pairwise.imp (fun {row row'} hne p hp hp' => ?_) List.nodup_range'
    obtain ⟨_, _, rfl⟩ := List.mem_map.mp hp
    obtain ⟨_, _, h⟩ := List.mem_map.mp hp'
    exact hne (SurfacePoint.mk.inj h).2.symm

private theorem nodup_litPoints (surface : Resolution) :
    ((litBlocks pixels width scale).flatMap surface.blockPoints).Nodup :=
  List.nodup_flatMap.mpr ⟨fun b _ => nodup_blockPoints surface b, pairwise_disjoint_litBlocks surface⟩

end

/-- On a surface that fits on a terminal screen points are drawn at their own columns and rows. -/
theorem SurfacePoint.coordinates_eq {p : SurfacePoint} (hcolumn : p.column < Area.limit)
    (hrow : p.row < Area.limit) : p.coordinates = ((p.column : Int), -(p.row : Int)) := by
  have hexact {n : Nat} (h : n < Area.limit) : SurfacePoint.coordinate n = n := by
    have hlimit : Area.limit < Number.BinaryFormat.exactLimit Number.double := by decide
    exact if_pos (Nat.lt_trans h hlimit)
  rw [coordinates, hexact hcolumn, hexact hrow]

namespace TermDisplay
variable {d : TermDisplay} {width height scale : Nat} {pixels : List Pixel}

/-- The points held are drawn at the lit cells of the picture, one at each. -/
def HoldsExactly (d : TermDisplay) (pixels : List Pixel) (width height scale : Nat) : Prop :=
  (d.points.toList.map SurfacePoint.coordinates).Nodup ∧
    ∀ c, c ∈ d.points.toList.map SurfacePoint.coordinates ↔
      ∃ x < width * scale, ∃ y < height * scale,
        SurfaceLit pixels width scale ⟨x, y⟩ ∧ c = ((x : Int), -(y : Int))

private theorem Framed.holdsExactly (framed : d.Framed width height scale)
    (hpoints : d.points = ((litBlocks pixels width scale).flatMap d.surface.blockPoints).toArray) :
    d.HoldsExactly pixels width height scale := by
  obtain ⟨hw, hh⟩ := framed.sides
  have hcovered (p : SurfacePoint) : p ∈ d.points.toList ↔
      p.column < width * scale ∧ p.row < height * scale ∧ SurfaceLit pixels width scale p := by
    rw [hpoints, List.mem_flatMap]
    exact mem_blockPoints_litBlocks framed.surface p
  have hplaced (p : SurfacePoint) (hp : p ∈ d.points.toList) :
      p.coordinates = ((p.column : Int), -(p.row : Int)) := by
    obtain ⟨hcolumn, hrow, -⟩ := (hcovered p).mp hp
    exact SurfacePoint.coordinates_eq (Nat.lt_of_lt_of_le hcolumn hw) (Nat.lt_of_lt_of_le hrow hh)
  constructor
  · refine List.Nodup.map_on (fun p hp q hq h => ?_) (hpoints ▸ nodup_litPoints d.surface)
    rw [hplaced p hp, hplaced q hq, Prod.mk.injEq] at h
    obtain ⟨column, row⟩ := p
    obtain ⟨column', row'⟩ := q
    simp only [SurfacePoint.mk.injEq] at h ⊢
    omega
  · intro c
    rw [List.mem_map]
    constructor
    · rintro ⟨p, hp, rfl⟩
      obtain ⟨hcolumn, hrow, hlit⟩ := (hcovered p).mp hp
      exact ⟨p.column, hcolumn, p.row, hrow, hlit, hplaced p hp⟩
    · rintro ⟨x, hx, y, hy, hlit, rfl⟩
      have hp := (hcovered ⟨x, y⟩).mpr ⟨hx, hy, hlit⟩
      exact ⟨⟨x, y⟩, hp, hplaced _ hp⟩

private theorem Framed.fills_iff_mem (framed : d.Framed width height scale)
    (hcolumns : width * scale + 2 ≤ d.terminal.width) (hrows : height * scale + 2 ≤ d.terminal.height)
    (inside : ∀ p ∈ d.refused ++ d.points, p.column < width * scale ∧ p.row < height * scale)
    (accepts : d.drawing = .ok ()) {x y : Nat} (hx : x < width * scale) (hy : y < height * scale) :
    (TermDisplay.draw d).Fills x y ↔ (⟨x, y⟩ : SurfacePoint) ∈ d.refused ++ d.points := by
  obtain ⟨hw, hh⟩ := framed.sides
  have hinner : Picture.inner (d.room width height scale).width = width * scale ∧
      Picture.inner (d.room width height scale).height = height * scale := by
    simp only [room, Area.meet, Picture.inner]
    omega
  have hshown : (TermDisplay.draw d).shown = some ⟨d.room width height scale,
      Picture.titleCells d.title.toList,
      Picture.fill (d.room width height scale) d.surface (d.refused ++ d.points)⟩ := by
    rw [TermDisplay.draw, framed.picture, accepts]
  -- a room of the size of the picture squeezes nothing: each place is its own
  have hplace {count n : Nat} (h2 : 2 ≤ count) (hlimit : count ≤ Area.limit) (hn : n < count) :
      Picture.place? count count n = some n := by
    rw [Picture.place?_eq_squeeze h2 hlimit (Nat.le_refl _) hn, Picture.squeeze_self h2]
  rw [fills_iff hshown (hinner.1.symm ▸ hx) (hinner.2.symm ▸ hy),
    Picture.isFilled_fill (hinner.1.symm ▸ hx) (hinner.2.symm ▸ hy), hinner.1, hinner.2, framed.surface]
  constructor
  · rintro ⟨p, hp, hcolumn, hrow⟩
    obtain ⟨hpx, hpy⟩ := inside p hp
    obtain rfl := Option.some.inj ((hplace framed.wide hw hpx).symm.trans hcolumn)
    obtain rfl := Option.some.inj ((hplace framed.high hh hpy).symm.trans hrow)
    exact hp
  · exact fun hp => ⟨_, hp, hplace framed.wide hw hx, hplace framed.high hh hy⟩

/-- On a terminal that has room for pictures of a size, whatever was done to the screen before, showing a
picture leaves just its lit cells held, one point at each. Once it is accepted its lit cells are seen
filled, and besides them only cells of drawings refused since one was last accepted. -/
theorem fitting_shown_with_refused {terminal : Area} (hwide : 2 ≤ width * scale)
    (hhigh : 2 ≤ height * scale) (hcolumns : width * scale + 2 ≤ terminal.width)
    (hrows : height * scale + 2 ≤ terminal.height)
    (hcells : terminal.width * terminal.height ≤ Area.limit) :
    ∃ opened, ofPicture terminal width height scale = .ok opened ∧
      ∀ (uses : List Use) (pixels : List Pixel), pixels.length = width * height →
        let d := opened.useAll uses
        (∀ answer, ∃ shown, Display.showPixels { d with drawing := answer } pixels width scale =
            .ok (answer, shown) ∧ shown.fault = d.fault ∧
          shown.HoldsExactly pixels width height scale ∧
          (answer = .ok () → ∀ x < width * scale, ∀ y < height * scale, (shown.Fills x y ↔
            SurfaceLit pixels width scale ⟨x, y⟩ ∨ ⟨x, y⟩ ∈ d.refused))) ∧
        (refusedLast uses = false → d.refused = #[]) := by
  obtain ⟨opened, hopened, hnew, hterminal⟩ := inUse_ofPicture hwide hhigh hcolumns hrows hcells
  refine ⟨opened, hopened, fun uses pixels hpixels => ?_⟩
  intro d
  have hused : d.InUse width height scale (refusedLast uses) := hnew.useAll uses
  refine ⟨fun answer => ?_, hused.settled⟩
  let points := ((litBlocks pixels width scale).flatMap d.surface.blockPoints).toArray
  let ready : TermDisplay := { d with drawing := answer, points }
  have framed : ready.Framed width height scale := { hused.framed with }
  have hpicture := framed.picture
  refine ⟨TermDisplay.draw ready, ?_, ?_, ?_, ?_⟩
  · exact Framed.showPixels (d := { d with drawing := answer }) { hused.framed with } hpixels
  · rw [TermDisplay.draw, hpicture]
    cases answer <;> rfl
  · have hholds : ready.HoldsExactly pixels width height scale := framed.holdsExactly rfl
    rwa [HoldsExactly, ← draw_points] at hholds
  · rintro accepts x hx y hy
    have hlit (p : SurfacePoint) : p ∈ points ↔
        p.column < width * scale ∧ p.row < height * scale ∧ SurfaceLit pixels width scale p := by
      rw [List.mem_toArray, List.mem_flatMap]
      exact mem_blockPoints_litBlocks hused.framed.surface p
    have hterminal : ready.terminal = terminal := (opened.useAll_terminal uses).trans hterminal
    have inside : ∀ p ∈ ready.refused ++ points, p.column < width * scale ∧ p.row < height * scale :=
      fun p hp => (Array.mem_append.mp hp).elim (hused.refused p) fun h => by
        obtain ⟨hcolumn, hrow, -⟩ := (hlit p).mp h
        exact ⟨hcolumn, hrow⟩
    rw [framed.fills_iff_mem (hterminal ▸ hcolumns) (hterminal ▸ hrows) inside accepts hx hy,
      Array.mem_append, or_comm]
    exact or_congr_left ((hlit ⟨x, y⟩).trans (by simp only [hx, hy, true_and]))

/-- Four pixels of which the last is lit, over a refused drawing in which the first was. -/
theorem fitting_shown_with_refused_of_four :
    let uses : List Use := [.paint ⟨0, 0, 1⟩, .present (.error (.other "draw refused")), .clear]
    ∃ opened, ofPicture ⟨4, 4⟩ 2 2 1 = .ok opened ∧ refusedLast uses = true ∧
      ∃ shown, Display.showPixels { opened.useAll uses with drawing := .ok () } [0, 0, 0, 1] 2 1 =
          .ok (.ok (), shown) ∧ shown.HoldsExactly [0, 0, 0, 1] 2 2 1 ∧
        shown.Fills 1 1 ∧ shown.Fills 0 0 ∧ ¬shown.Fills 1 0 := by
  intro uses
  have hwide : 2 ≤ 2 * 1 := by decide
  have hroom : 2 * 1 + 2 ≤ (⟨4, 4⟩ : Area).width := by decide
  obtain ⟨opened, hopened, hshows⟩ :=
    fitting_shown_with_refused hwide hwide hroom hroom (by decide)
  obtain rfl : opened = { terminal := ⟨4, 4⟩, surface := ⟨2, 2⟩ } := (Except.ok.inj hopened).symm
  obtain ⟨shown, hshown, -, hholds, hfills⟩ := (hshows uses [0, 0, 0, 1] rfl).1 (.ok ())
  have hfills := hfills rfl
  have hlit : SurfaceLit [0, 0, 0, 1] 2 1 ⟨1, 1⟩ := ⟨1, rfl, by decide⟩
  have hdark : ¬SurfaceLit [0, 0, 0, 1] 2 1 ⟨1, 0⟩ :=
    fun ⟨_, hpixel, hlit⟩ => hlit (Option.some.inj hpixel).symm
  have hrefused : (useAll { terminal := ⟨4, 4⟩, surface := ⟨2, 2⟩ } uses).refused = #[⟨0, 0⟩] := rfl
  rw [hrefused] at hfills
  refine ⟨_, hopened, rfl, shown, hshown, hholds, ?_, ?_, ?_⟩
  · exact (hfills 1 (by decide) 1 (by decide)).mpr (.inl hlit)
  · exact (hfills 0 (by decide) 0 (by decide)).mpr (.inr (by simp))
  · rw [hfills 1 (by decide) 0 (by decide)]
    exact not_or_intro hdark (by simp)

/-- What a refused drawing painted is seen in the next picture, in a cell of a dark pixel. -/
theorem refused_drawing_seen_later :
    let opened : TermDisplay := { terminal := ⟨4, 4⟩, surface := ⟨2, 2⟩ }
    let uses : List Use := [.paint ⟨0, 0, 1⟩, .present (.error (.other "draw refused"))]
    let pixels : List Pixel := [0, 0, 0, 1]
    ofPicture ⟨4, 4⟩ 2 2 1 = .ok opened ∧
    ∃ shown, Display.showPixels { opened.useAll uses with drawing := .ok () } pixels 2 1 =
        .ok (.ok (), shown) ∧ shown.Fills 0 0 ∧ ¬SurfaceLit pixels 2 1 ⟨0, 0⟩ := by
  refine ⟨rfl, _, rfl, ⟨_, rfl, by decide⟩, ?_⟩
  rintro ⟨pixel, hpixel, hlit⟩
  exact hlit (Option.some.inj hpixel).symm

end TermDisplay

end Chip8Console
