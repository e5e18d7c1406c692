import Mathlib.Algebra.Order.Floor.Div
import Relief.Render.Frame

set_option autoImplicit false

/-! # Tilings: the cells of a raster

A frame cuts its raster into cells, taken row by row: cell `i` stands in column `i % columns` and
row `i / columns` of the grid, and is cut off where the raster ends. Along one side, a coordinate
of the raster lies in exactly one stretch, the one with number `p / edge` (`mem_stretch_iff`). Both
sides together say which cell a pixel lies in (`cell_contains_iff`); that two cells share no pixel
and that no pixel is left out are both read off from it. -/

namespace Relief

/-- A rectangle of pixels. -/
structure Rect where
  x : Nat
  y : Nat
  width : Nat
  height : Nat
deriving DecidableEq, Repr

/-- Whether a pixel lies in a rectangle. -/
def Rect.Contains (r : Rect) (x y : Nat) : Prop :=
  (r.x ≤ x ∧ x < r.x + r.width) ∧ (r.y ≤ y ∧ y < r.y + r.height)

instance (r : Rect) (x y : Nat) : Decidable (r.Contains x y) :=
  inferInstanceAs (Decidable (_ ∧ _))

/-- The pixels that a tile covers. -/
def Tile.rect (t : Tile) : Rect := ⟨t.offsetX, t.offsetY, t.width, t.height⟩

namespace Frame

/-! ## One side -/

theorem tilesAlong_eq_ceilDiv (length : Nat) : tilesAlong length = length ⌈/⌉ Tile.edge := by
  rw [Nat.ceilDiv_eq_add_pred_div, tilesAlong]

theorem tilesAlong_eq_div (length : Nat) : tilesAlong length = (length + 255) / 256 := by
  simp only [tilesAlong, Tile.edge]
  omega

theorem cellLength_pos {c length : Nat} (hc : c < tilesAlong length) :
    0 < cellLength (c * Tile.edge) length := by
  simp only [tilesAlong, cellLength, Tile.edge] at hc ⊢
  omega

/-- A cell ends inside its side. -/
theorem offset_add_cellLength_le {c length : Nat} (hc : c < tilesAlong length) :
    c * Tile.edge + cellLength (c * Tile.edge) length ≤ length := by
  simp only [tilesAlong, cellLength, Tile.edge] at hc ⊢
  omega

theorem div_edge_lt_tilesAlong {p length : Nat} (hp : p < length) :
    p / Tile.edge < tilesAlong length := by
  simp only [tilesAlong, Tile.edge]
  omega

/-- A coordinate lies in the stretch with number `p / edge` and in no other. -/
theorem mem_stretch_iff {p c length : Nat} (hp : p < length) :
    c * Tile.edge ≤ p ∧ p < c * Tile.edge + cellLength (c * Tile.edge) length
      ↔ c = p / Tile.edge := by
  simp only [cellLength, Tile.edge]
  omega

/-! ## The grid -/

/-- A frame of the given size of which `i` tiles are done. -/
def after (size : Size) (i : Nat) : Frame := { start size with tileIndex := i }

/-- The `i`-th cell of a raster. -/
def cell (size : Size) (i : Nat) : Rect := (after size i).nextTile.rect

/-- The number of cells of a raster. -/
def cellCount (size : Size) : Nat := tilesAlong size.width * tilesAlong size.height

theorem cellCount_eq_ceilDiv (size : Size) :
    cellCount size = (size.width ⌈/⌉ 256) * (size.height ⌈/⌉ 256) := by
  rw [cellCount, tilesAlong_eq_ceilDiv, tilesAlong_eq_ceilDiv]
  rfl

/-- Where a cell stands. -/
theorem offset_cell (size : Size) (i : Nat) :
    (cell size i).x = 256 * (i % (size.width ⌈/⌉ 256)) ∧
      (cell size i).y = 256 * (i / (size.width ⌈/⌉ 256)) := by
  have hcolumns : tilesAlong size.width = size.width ⌈/⌉ 256 := tilesAlong_eq_ceilDiv _
  rw [← hcolumns, Nat.mul_comm, Nat.mul_comm 256]
  exact ⟨rfl, rfl⟩

/-- The column of a cell lies in the grid. -/
theorem column_lt {size : Size} {i : Nat} (hi : i < cellCount size) :
    i % tilesAlong size.width < tilesAlong size.width :=
  Nat.mod_lt _ (Nat.pos_of_lt_mul_right hi)

/-- The row of a cell lies in the grid. -/
theorem row_lt {size : Size} {i : Nat} (hi : i < cellCount size) :
    i / tilesAlong size.width < tilesAlong size.height :=
  Nat.div_lt_of_lt_mul hi

/-- A cell is not empty. -/
theorem cell_pos {size : Size} {i : Nat} (hi : i < cellCount size) :
    1 ≤ (cell size i).width ∧ 1 ≤ (cell size i).height :=
  ⟨cellLength_pos (column_lt hi), cellLength_pos (row_lt hi)⟩

/-- A cell is at most a full tile. -/
theorem cell_le_edge (size : Size) (i : Nat) :
    (cell size i).width ≤ Tile.edge ∧ (cell size i).height ≤ Tile.edge :=
  ⟨cellLength_le _ _, cellLength_le _ _⟩

/-- A cell lies inside the raster. -/
theorem cell_inside {size : Size} {i : Nat} (hi : i < cellCount size) :
    (cell size i).x + (cell size i).width ≤ size.width
      ∧ (cell size i).y + (cell size i).height ≤ size.height :=
  ⟨offset_add_cellLength_le (column_lt hi), offset_add_cellLength_le (row_lt hi)⟩

/-- The number of the cell that a pixel lies in. -/
def cellOf (size : Size) (x y : Nat) : Nat :=
  y / Tile.edge * tilesAlong size.width + x / Tile.edge

theorem cellOf_lt {size : Size} {x y : Nat} (hx : x < size.width) (hy : y < size.height) :
    cellOf size x y < cellCount size :=
  rowMajor_lt (div_edge_lt_tilesAlong hx) (div_edge_lt_tilesAlong hy)

/-- **A pixel of the raster lies in exactly one cell**, the one with number `cellOf`. -/
theorem cell_contains_iff {size : Size} {x y : Nat} (hx : x < size.width) (hy : y < size.height)
    (i : Nat) : (cell size i).Contains x y ↔ i = cellOf size x y := by
  have hcol : x / Tile.edge < tilesAlong size.width := div_edge_lt_tilesAlong hx
  have hstretches : (cell size i).Contains x y
      ↔ i % tilesAlong size.width = x / Tile.edge ∧ i / tilesAlong size.width = y / Tile.edge :=
    and_congr (mem_stretch_iff hx) (mem_stretch_iff hy)
  rw [hstretches]
  exact rowMajor_iff hcol

/-- Two cells of the raster share no pixel. -/
theorem cell_disjoint {size : Size} {i j x y : Nat} (hi : i < cellCount size)
    (hcell : (cell size i).Contains x y) (hcell' : (cell size j).Contains x y) : i = j := by
  have hinside := cell_inside hi
  have hright := hcell.1.2
  have hbottom := hcell.2.2
  have hx : x < size.width := by omega
  have hy : y < size.height := by omega
  rw [(cell_contains_iff hx hy i).1 hcell, (cell_contains_iff hx hy j).1 hcell']

end Frame

end Relief
