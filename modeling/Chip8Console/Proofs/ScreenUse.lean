import Chip8Console.Proofs.SmallTerminal

/-!
A screen in use. Whatever is painted on it and however its terminal answers, its surface and its size stay,
and no point leaves the surface.
-/
namespace Chip8Console.TermDisplay

/-- What is asked of a screen while it is open. The answer of the terminal comes with a drawing. -/
inductive Use where
  | clear
  | paint (block : Block)
  | caption (text : String)
  | present (answer : Except Cause Unit)

def use (d : TermDisplay) : Use → TermDisplay
  | .clear => Display.clear d
  | .paint block => Display.paint d block
  | .caption text => Display.caption d text
  | .present answer => (Display.present { d with drawing := answer }).2

def useAll (d : TermDisplay) (uses : List Use) : TermDisplay := uses.foldl use d

private theorem draw_terminal (d : TermDisplay) : (draw d).terminal = d.terminal := by
  unfold draw
  split <;> rfl

theorem draw_points (d : TermDisplay) : (draw d).points = d.points := by
  unfold draw
  split <;> rfl

theorem useAll_terminal (d : TermDisplay) (uses : List Use) : (d.useAll uses).terminal = d.terminal := by
  induction uses generalizing d with
  | nil => rfl
  | cons u rest ih =>
    refine (ih (d.use u)).trans ?_
    cases u with
    | paint block =>
      simp only [use, Display.paint]
      split <;> rfl
    | present answer => exact draw_terminal _
    | _ => rfl

/-- Whether a refused drawing is left over, given whether one was before. -/
def Use.leaves (before : Bool) : Use → Bool
  | .present (.ok ()) => false
  | .present (.error _) => true
  | _ => before

/-- Whether a drawing was refused and none was accepted after it. -/
def refusedLast (uses : List Use) : Bool := uses.foldl Use.leaves false

/-- What holds of a screen for pictures of this size while it is in use. -/
structure InUse (d : TermDisplay) (width height scale : Nat) (leaves : Bool) : Prop where
  framed : d.Framed width height scale
  points : ∀ p ∈ d.points, p.column < width * scale ∧ p.row < height * scale
  refused : ∀ p ∈ d.refused, p.column < width * scale ∧ p.row < height * scale
  settled : leaves = false → d.refused = #[]

variable {d : TermDisplay} {width height scale : Nat} {leaves : Bool}

private theorem InUse.paint (h : d.InUse width height scale leaves) (block : Block) :
    (Display.paint d block).InUse width height scale leaves := by
  simp only [Display.paint]
  split
  · next points hpoints =>
    refine ⟨{ h.framed with }, fun p hp => ?_, h.refused, h.settled⟩
    rw [← Array.mem_toList_iff, Array.toList_appendList, List.mem_append, Array.mem_toList_iff] at hp
    rcases hp with hp | hp
    · exact h.points p hp
    · have hcovered : points = d.surface.blockPoints block := by
        obtain ⟨_, _, hrest⟩ := ArithmeticFault.bind_eq_ok_iff.mp hpoints
        split at hrest
        · obtain ⟨_, _, hrest⟩ := ArithmeticFault.bind_eq_ok_iff.mp hrest
          exact (Except.ok.inj hrest).symm
        · exact (Except.ok.inj hrest).symm
      obtain ⟨⟨-, -, hcolumn⟩, -, -, hrow⟩ := (Resolution.mem_blockPoints _ _ p).mp (hcovered ▸ hp)
      rw [h.framed.surface] at hcolumn hrow
      exact ⟨hcolumn, hrow⟩
  · exact ⟨{ h.framed with }, h.points, h.refused, h.settled⟩

private theorem InUse.present (h : d.InUse width height scale leaves) (answer : Except Cause Unit) :
    (use d (.present answer)).InUse width height scale ((Use.present answer).leaves leaves) := by
  have framed : Framed { d with drawing := answer } width height scale := { h.framed with }
  simp only [use, Display.present, draw, framed.picture]
  cases answer with
  | ok =>
    exact ⟨{ h.framed with }, h.points, fun p hp => absurd hp (Array.not_mem_empty p), fun _ => rfl⟩
  | error cause =>
    refine ⟨{ h.framed with }, h.points, fun p hp => ?_, fun leaves => Bool.noConfusion leaves⟩
    exact (Array.mem_append.mp hp).elim (h.refused p) (h.points p)

/-- Every use keeps the surface and the points on it. -/
theorem InUse.use (h : d.InUse width height scale leaves) (u : Use) :
    (d.use u).InUse width height scale (u.leaves leaves) := by
  cases u with
  | clear => exact ⟨{ h.framed with }, fun p hp => absurd hp (Array.not_mem_empty p), h.refused, h.settled⟩
  | paint block => exact h.paint block
  | caption text => exact ⟨{ h.framed with }, h.points, h.refused, h.settled⟩
  | present answer => exact h.present answer

/-- What holds of a screen in use holds whatever is asked of it. -/
theorem InUse.useAll (h : d.InUse width height scale leaves) (uses : List Use) :
    (d.useAll uses).InUse width height scale (uses.foldl Use.leaves leaves) := by
  induction uses generalizing d leaves with
  | nil => exact h
  | cons u rest ih => exact ih (h.use u)

/-- A screen that was just opened on a terminal with room for its pictures. -/
theorem inUse_ofPicture {terminal : Area} (hwide : 2 ≤ width * scale) (hhigh : 2 ≤ height * scale)
    (hcolumns : width * scale + 2 ≤ terminal.width) (hrows : height * scale + 2 ≤ terminal.height)
    (hcells : terminal.width * terminal.height ≤ Area.limit) :
    ∃ opened, ofPicture terminal width height scale = .ok opened ∧
      opened.InUse width height scale false ∧ opened.terminal = terminal := by
  have hsides : (2 + width * scale) * (2 + height * scale) ≤ Area.limit :=
    Nat.le_trans (Nat.mul_le_mul (by omega) (by omega)) hcells
  have hscale : max scale 1 = scale := by
    have := Nat.pos_of_mul_pos_left (Nat.lt_of_lt_of_le Nat.zero_lt_two hwide)
    omega
  have hterminal : Area.ofSides terminal.width terminal.height = terminal :=
    if_neg (Nat.not_lt.mpr hcells)
  have hwidth := Nat.le_trans (Nat.le_mul_of_pos_right (2 + width * scale) (by omega)) hsides
  have hheight := Nat.le_trans (Nat.le_mul_of_pos_left (2 + height * scale) (by omega)) hsides
  have hlimit : Area.limit < Word.limit := by decide
  have hsurface : Resolution.ofPicture width height (max scale 1) =
      .ok ⟨width * scale, height * scale⟩ := by
    rw [hscale, Resolution.ofPicture, Word.multiply, Word.multiply, if_pos (by omega),
      if_pos (by omega)]
    rfl
  refine ⟨{ terminal, surface := ⟨width * scale, height * scale⟩ }, ?_, ⟨?_, ?_, ?_, fun _ => rfl⟩, rfl⟩
  · rw [ofPicture, hsurface, hterminal]
    rfl
  · exact ⟨rfl, hwide, hhigh, hsides, by simp only; omega, by simp only; omega⟩
  · exact fun p hp => absurd hp (Array.not_mem_empty p)
  · exact fun p hp => absurd hp (Array.not_mem_empty p)

end Chip8Console.TermDisplay
