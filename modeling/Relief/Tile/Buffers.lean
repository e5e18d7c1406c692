import Relief.Tile.Basic
import Relief.Expr.Lowering
import Relief.Strided

set_option autoImplicit false

/-! # Tile buffers: positions and normals of a height field

A tile seen as a surface over the unit square: every sample is a point `(u, v, height)`, and every
quad between four neighbouring samples has a normal from forward differences. Both are written into
a caller's buffer, which must have exactly the right length; otherwise the buffer stays as it is
and the lengths are reported.

That length is the only thing that is looked at. The loops behind it read samples and overwrite
places by computed numbers, so each such access is a partial one here: `none` stands for a height
that cannot be read, for a place outside of the buffer, and for a count below zero. None of them
occurs (`isSome_writePositions?`, `isSome_writeNormals?`), which is why `writePositions` and
`writeNormals` always have an answer. -/

namespace Relief.Tile

/-! ## Single accesses -/

/-- Heights as they can be read, by column and row. -/
abbrev Source := Nat → Nat → Option Float32

/-- Overwrites a place of a buffer; there must be one. -/
def overwrite? (buffer : Array Float32) (i : Nat) (a : Float32) : Option (Array Float32) :=
  if i < buffer.size then some (buffer.setIfInBounds i a) else none

/-- A count less another one; it must not be below zero. -/
def less? (m n : Nat) : Option Nat := if n ≤ m then some (m - n) else none

/-- Overwrites the `i`-th three places of a buffer by a vector. -/
def putVector? (buffer : Array Float32) (i : Nat) (v : Vector Float32 3) :
    Option (Array Float32) := do
  let buffer ← overwrite? buffer (i * 3) (v.get 0)
  let buffer ← overwrite? buffer (i * 3 + 1) (v.get 1)
  overwrite? buffer (i * 3 + 2) (v.get 2)

/-! ## Grids of vectors -/

/-- Overwrites the places of row `y` of a grid by the vectors at its cells. -/
def fillRow? (columns : Nat) (cell : Nat → Nat → Option (Vector Float32 3)) (y : Nat)
    (buffer : Array Float32) : Option (Array Float32) :=
  (List.range columns).foldlM (fun buffer x => do
    let v ← cell x y
    putVector? buffer (y * columns + x) v) buffer

/-- Overwrites a buffer by the vectors at the cells of a grid, row by row. -/
def fillGrid? (columns rows : Nat) (cell : Nat → Nat → Option (Vector Float32 3))
    (buffer : Array Float32) : Option (Array Float32) :=
  (List.range rows).foldlM (fun buffer y => fillRow? columns cell y buffer) buffer

/-- The point of a sample with a height, at column `x` of row `y`. -/
def positionOf (size : Size) (x y : Nat) (h : Float32) : Vector Float32 3 :=
  let c := Coords.ofPixel x y size.width size.height
  #v[c.u, c.v, h]

/-- The unnormalised normal of a quad from the heights at its first corner, to the right of it and
    below it. With constant spacing the cross product of the two edges reduces to these three
    products. -/
def normalOf (size : Size) (h right below : Float32) : Vector Float32 3 :=
  let dx := Binary32.one / Binary32.ofSize size.width
  let dy := Binary32.one / Binary32.ofSize size.height
  #v[dy * (right - h), dx * (below - h), -(dx * dy)]

/-- The point of the sample at column `x` of row `y`, if its height can be read. -/
def position? (heights : Source) (size : Size) (x y : Nat) : Option (Vector Float32 3) := do
  let h ← heights x y
  return positionOf size x y h

/-- The normal of the quad whose first corner is at column `x` of row `y`, if three of its heights
    can be read. -/
def normal? (heights : Source) (size : Size) (x y : Nat) : Option (Vector Float32 3) := do
  let h ← heights x y
  let right ← heights (x + 1) y
  let below ← heights x (y + 1)
  return normalOf size h right below

/-! ## Whole buffers -/

/-- The number of quads between the samples of a `width × height` grid. -/
def quadCount (width height : Nat) : Nat := (width - 1) * (height - 1)

/-- Lets a loop overwrite a buffer, which must have the right length: how it went, and the buffer
    as it is left. -/
def overwriteAll? (length : Nat) (loop : Array Float32 → Option (Array Float32))
    (buffer : Array Float32) : Option (Except RenderError Unit × Array Float32) :=
  if buffer.size = length then (loop buffer).map fun buffer => (.ok (), buffer)
  else some (.error (.bufferSize length buffer.size), buffer)

/-- Writes the positions of a grid of samples into a buffer. -/
def putPositions? (heights : Source) (size : Size) :
    Array Float32 → Option (Except RenderError Unit × Array Float32) :=
  overwriteAll? (size.area * 3) (fillGrid? size.width size.height (position? heights size))

/-- Overwrites a buffer by the normals of a grid of samples; where there is no quad, the counts of
    columns and rows of quads are not even formed. -/
def fillNormals? (heights : Source) (size : Size) (buffer : Array Float32) :
    Option (Array Float32) :=
  if quadCount size.width size.height * 3 = 0 then some buffer
  else do
    let columns ← less? size.width 1
    let rows ← less? size.height 1
    fillGrid? columns rows (normal? heights size) buffer

/-- Writes the normals of a grid of samples into a buffer. -/
def putNormals? (heights : Source) (size : Size) :
    Array Float32 → Option (Except RenderError Unit × Array Float32) :=
  overwriteAll? (quadCount size.width size.height * 3) (fillNormals? heights size)

/-! ## The loops of a tile -/

/-- The columns and rows of a tile. -/
def size (t : Tile) : Size := ⟨t.width, t.height⟩

/-- The numbers of a position buffer: three for each sample. -/
def positionCount (t : Tile) : Nat := t.size.area * 3

/-- The numbers of a normal buffer: three for each quad. -/
def normalCount (t : Tile) : Nat := quadCount t.width t.height * 3

/-- Writes the positions of a tile into a buffer of `positionCount` numbers. -/
def writePositions? (t : Tile) : Array Float32 → Option (Except RenderError Unit × Array Float32) :=
  putPositions? t.heightAt? t.size

/-- Writes the normals of a tile into a buffer of `normalCount` numbers. -/
def writeNormals? (t : Tile) : Array Float32 → Option (Except RenderError Unit × Array Float32) :=
  putNormals? t.heightAt? t.size

/-! ## What the loops do -/

theorem overwrite?_of_lt {buffer : Array Float32} {i : Nat} (hi : i < buffer.size) (a : Float32) :
    overwrite? buffer i a = some (buffer.setIfInBounds i a) :=
  if_pos hi

theorem less?_of_le {m n : Nat} (h : n ≤ m) : less? m n = some (m - n) := if_pos h

theorem putVector?_of_le {buffer : Array Float32} {i : Nat} (hi : i * 3 + 3 ≤ buffer.size)
    (v : Vector Float32 3) : putVector? buffer i v = some (Strided.put buffer i v) := by
  rw [putVector?, overwrite?_of_lt (by omega)]
  simp only [Option.bind_eq_bind, Option.bind_some]
  rw [overwrite?_of_lt (by rw [Array.size_setIfInBounds]; omega), Option.bind_some,
    overwrite?_of_lt (by simp only [Array.size_setIfInBounds]; omega)]
  rfl

/-- A loop that passes through a sequence of states ends in the last one. -/
theorem foldlM_range {α : Type} {f : α → Nat → Option α} {a : Nat → α} {n : Nat}
    (hstep : ∀ i < n, f (a i) i = some (a (i + 1))) :
    (List.range n).foldlM f (a 0) = some (a n) := by
  induction n with
  | zero => rfl
  | succ n ih =>
      have hlast : f (a n) n = some (a (n + 1)) := hstep n (Nat.lt_succ_self n)
      rw [List.range_succ, List.foldlM_append, ih fun i hi => hstep i (Nat.lt_succ_of_lt hi)]
      simp only [List.foldlM_cons, List.foldlM_nil, Option.bind_eq_bind, Option.bind_some, hlast]
      rfl

section Grid

variable {columns rows : Nat} {cell : Nat → Nat → Option (Vector Float32 3)}
  {value : Nat → Nat → Vector Float32 3} {buffer : Array Float32}

/-- The vectors of a grid by their numbers. -/
def rowMajor (columns : Nat) (value : Nat → Nat → Vector Float32 3) (i : Nat) : Vector Float32 3 :=
  value (i % columns) (i / columns)

/-- A row adds its groups to the ones that are filled already. -/
theorem fillRow?_eq_fill {y : Nat} (hcell : ∀ x < columns, cell x y = some (value x y))
    (hroom : (y + 1) * columns * 3 ≤ buffer.size) :
    fillRow? columns cell y (Strided.fill buffer (y * columns) (rowMajor columns value))
      = some (Strided.fill buffer ((y + 1) * columns) (rowMajor columns value)) := by
  rw [Nat.succ_mul] at hroom ⊢
  refine foldlM_range (a := fun n => Strided.fill buffer (y * columns + n) (rowMajor columns value))
    fun x hx => ?_
  have hvalue : rowMajor columns value (y * columns + x) = value x y := by
    obtain ⟨hcolumn, hrow⟩ := (rowMajor_iff hx).2 (rfl : y * columns + x = _)
    rw [rowMajor, hcolumn, hrow]
  have hplace : (y * columns + x) * 3 + 3 ≤
      (Strided.fill buffer (y * columns + x) (rowMajor columns value)).size := by
    rw [Strided.size_fill]
    omega
  simp only [hcell x hx, Option.bind_eq_bind, Option.bind_some]
  rw [putVector?_of_le hplace, ← hvalue, ← Strided.fill_succ]
  rfl

/-- **The loops over a grid overwrite all of its groups in order**, if its cells can be read and the
    buffer has room for them. -/
theorem fillGrid?_eq_fill (hcell : ∀ y < rows, ∀ x < columns, cell x y = some (value x y))
    (hsize : buffer.size = columns * rows * 3) :
    fillGrid? columns rows cell buffer
      = some (Strided.fill buffer (columns * rows) (rowMajor columns value)) := by
  have hrow : ∀ y < rows,
      fillRow? columns cell y (Strided.fill buffer (y * columns) (rowMajor columns value))
        = some (Strided.fill buffer ((y + 1) * columns) (rowMajor columns value)) := by
    intro y hy
    refine fillRow?_eq_fill (hcell y hy) ?_
    rw [hsize, Nat.mul_comm columns rows]
    exact Nat.mul_le_mul_right 3 (Nat.mul_le_mul_right columns hy)
  have hrows := foldlM_range (f := fun buffer y => fillRow? columns cell y buffer)
    (a := fun y => Strided.fill buffer (y * columns) (rowMajor columns value)) hrow
  rw [Nat.zero_mul] at hrows
  rw [fillGrid?, Nat.mul_comm columns rows, ← hrows]
  rfl

end Grid

/-! ## Every access has its place -/

section Covered

variable {heights : Source} {size : Size} {buffer : Array Float32}

/-- Whether there are heights all over a grid. -/
def Covers (heights : Source) (size : Size) : Prop :=
  ∀ x y, x < size.width → y < size.height → ∃ h, heights x y = some h

/-- A height, zero where there is none. -/
def heightOr (heights : Source) (x y : Nat) : Float32 := (heights x y).getD Binary32.zero

/-- The point at a cell. -/
def positionAt (heights : Source) (size : Size) (x y : Nat) : Vector Float32 3 :=
  positionOf size x y (heightOr heights x y)

/-- The normal at a cell. -/
def normalAt (heights : Source) (size : Size) (x y : Nat) : Vector Float32 3 :=
  normalOf size (heightOr heights x y) (heightOr heights (x + 1) y) (heightOr heights x (y + 1))

theorem Covers.eq_some (hcovers : Covers heights size) {x y : Nat} (hx : x < size.width)
    (hy : y < size.height) : heights x y = some (heightOr heights x y) := by
  obtain ⟨h, hh⟩ := hcovers x y hx hy
  rw [heightOr, hh, Option.getD_some]

/-- A tile has heights all over its grid. -/
theorem covers_heightAt? (t : Tile) : Covers t.heightAt? t.size :=
  fun _ _ hx hy => t.exists_height hx hy

/-- The loops over the samples find every height and every place. -/
theorem fillPositions?_eq_fill (hcovers : Covers heights size)
    (hsize : buffer.size = size.area * 3) :
    fillGrid? size.width size.height (position? heights size) buffer
      = some (Strided.fill buffer size.area (rowMajor size.width (positionAt heights size))) := by
  refine fillGrid?_eq_fill (fun y hy x hx => ?_) hsize
  simp only [position?, hcovers.eq_some hx hy, Option.bind_eq_bind, Option.bind_some]
  rfl

/-- The loops over the quads find every height and every place, also where there is no quad. -/
theorem fillNormals?_eq_fill (hcovers : Covers heights size)
    (hsize : buffer.size = quadCount size.width size.height * 3) :
    fillNormals? heights size buffer
      = some (Strided.fill buffer (quadCount size.width size.height)
          (rowMajor (size.width - 1) (normalAt heights size))) := by
  unfold fillNormals?
  split
  · next hnone =>
    have hquads : quadCount size.width size.height = 0 := by omega
    rw [hquads]
    rfl
  · next hsome =>
    -- There is a quad, so there are two columns and two rows.
    have hquads : 0 < (size.width - 1) * (size.height - 1) := by
      unfold quadCount at hsome
      omega
    have hwidth : 1 ≤ size.width := by
      have hcolumns := Nat.pos_of_lt_mul_right hquads
      omega
    have hheight : 1 ≤ size.height := by
      have hrows := Nat.pos_of_lt_mul_left hquads
      omega
    rw [less?_of_le hwidth, less?_of_le hheight]
    refine fillGrid?_eq_fill (fun y hy x hx => ?_) hsize
    have hhere := hcovers.eq_some (x := x) (y := y) (by omega) (by omega)
    have hright := hcovers.eq_some (x := x + 1) (y := y) (by omega) (by omega)
    have hbelow := hcovers.eq_some (x := x) (y := y + 1) (by omega) (by omega)
    simp only [normal?, hhere, hright, hbelow, Option.bind_eq_bind, Option.bind_some]
    rfl

theorem isSome_overwriteAll? {length : Nat} {loop : Array Float32 → Option (Array Float32)}
    (hloop : buffer.size = length → (loop buffer).isSome) :
    (overwriteAll? length loop buffer).isSome := by
  unfold overwriteAll?
  split
  · next hsize => rw [Option.isSome_map, hloop hsize]
  · rfl

end Covered

theorem isSome_writePositions? (t : Tile) (buffer : Array Float32) :
    (t.writePositions? buffer).isSome :=
  isSome_overwriteAll? fun hsize => by
    rw [fillPositions?_eq_fill t.covers_heightAt? hsize]
    rfl

theorem isSome_writeNormals? (t : Tile) (buffer : Array Float32) :
    (t.writeNormals? buffer).isSome :=
  isSome_overwriteAll? fun hsize => by
    rw [fillNormals?_eq_fill t.covers_heightAt? hsize]
    rfl

/-- What a caller goes on with: the buffer that is left, or the reason why it was refused. -/
def outcome (written : Except RenderError Unit × Array Float32) :
    Except RenderError (Array Float32) :=
  written.1.map fun _ => written.2

/-- Writes the positions into a buffer of `positionCount` numbers. -/
def writePositions (t : Tile) (buffer : Array Float32) : Except RenderError (Array Float32) :=
  outcome ((t.writePositions? buffer).get (t.isSome_writePositions? buffer))

/-- Writes the normals into a buffer of `normalCount` numbers. -/
def writeNormals (t : Tile) (buffer : Array Float32) : Except RenderError (Array Float32) :=
  outcome ((t.writeNormals? buffer).get (t.isSome_writeNormals? buffer))

end Relief.Tile
