import Relief.Tile.Basic
import Relief.Size

set_option autoImplicit false

/-! # Frames: the order in which a raster is cut into tiles

A frame remembers the raster it was begun at and how many of its tiles are done. The tiles are the
cells of a grid of full edges, taken row by row; cells at the right and bottom edge are cut off at
the raster. -/

namespace Relief

/-- How full tiles and the raster give coordinates to samples. -/
inductive Sampling where
  /-- Every tile samples the unit square as if it were a full tile of its own. -/
  | perTile
  /-- Samples are placed by the whole raster, so that neighbouring tiles join. -/
  | raster
deriving DecidableEq, Repr

/-- The progress of a frame. -/
structure Frame where
  size : Size
  tilesPerRow : Nat
  tileCount : Nat
  /-- The number of tiles rendered so far, and so the index of the next one. -/
  tileIndex : Nat
deriving DecidableEq, Repr

namespace Frame

/-- The number of tiles that cover a side of the given length. -/
def tilesAlong (length : Nat) : Nat := (length + Tile.edge - 1) / Tile.edge

/-- A frame that has just begun. -/
def start (size : Size) : Frame where
  size := size
  tilesPerRow := tilesAlong size.width
  tileCount := tilesAlong size.width * tilesAlong size.height
  tileIndex := 0

/-- The number of tiles still to render. -/
def remaining (f : Frame) : Nat := f.tileCount - f.tileIndex

/-- The length of the cell that starts at `offset` on a side of the given length. -/
def cellLength (offset length : Nat) : Nat := min (offset + Tile.edge) length - offset

theorem cellLength_le (offset length : Nat) : cellLength offset length ≤ Tile.edge := by
  unfold cellLength
  omega

/-- Where the next tile starts from the left. -/
def nextX (f : Frame) : Nat := f.tileIndex % f.tilesPerRow * Tile.edge

/-- Where the next tile starts from the top. -/
def nextY (f : Frame) : Nat := f.tileIndex / f.tilesPerRow * Tile.edge

/-- The next tile, still blank. -/
def nextTile (f : Frame) : Tile :=
  Tile.blank f.nextX f.nextY (cellLength f.nextX f.size.width) (cellLength f.nextY f.size.height)
    (Nat.mul_le_mul (cellLength_le _ _) (cellLength_le _ _))

/-- The frame with one tile more done. -/
def advance (f : Frame) : Frame := { f with tileIndex := f.tileIndex + 1 }

end Frame

end Relief
