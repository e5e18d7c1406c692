import Relief.Render.Error
import Relief.Size

set_option autoImplicit false

/-! # Tiles: small rectangles of samples

A tile covers at most `edge × edge` pixels of a larger raster, less at its right and bottom edges.
Its store always has room for a full tile; the samples of the tile itself come first, row by row
with the tile's own width as stride, and everything after them is zero. Rows and single heights are
read straight from the store, so they also answer for rows below the tile, up to the end of the
store. -/

namespace Relief

/-- One sample: a height and a colour. -/
structure Sample where
  height : Float32
  red : Float32
  green : Float32
  blue : Float32

/-- The sample an empty store holds. -/
def Sample.zero : Sample := ⟨Binary32.zero, Binary32.zero, Binary32.zero, Binary32.zero⟩

/-- A sample with a height and no colour. -/
def Sample.ofHeight (h : Float32) : Sample := { Sample.zero with height := h }

/-- The four numbers of a sample in order. -/
def Sample.channels (s : Sample) : List Float32 := [s.height, s.red, s.green, s.blue]

namespace Tile

/-- The edge length of a full tile. -/
def edge : Nat := 256

/-- The number of samples a tile can hold. -/
def capacity : Nat := edge * edge

end Tile

/-- A rectangle of samples at a place of a raster. -/
structure Tile where
  offsetX : Nat
  offsetY : Nat
  width : Nat
  height : Nat
  area_le : width * height ≤ Tile.capacity
  store : Vector Sample Tile.capacity

namespace Tile

/-- The number of samples of a tile. -/
def area (t : Tile) : Nat := t.width * t.height

/-- A tile of zeros. -/
def blank (offsetX offsetY width height : Nat) (fits : width * height ≤ capacity) : Tile :=
  ⟨offsetX, offsetY, width, height, fits, Vector.replicate capacity Sample.zero⟩

/-- A tile of zeros, unless its size is more than a tile can hold. -/
def blank? (offsetX offsetY width height : Nat) : Option Tile :=
  if fits : width * height ≤ capacity then some (blank offsetX offsetY width height fits) else none

/-! ## Writing -/

/-- Replaces the `i`-th sample of the tile by `f i` of it, and leaves the rest of the store. -/
def mapSamples (t : Tile) (f : Nat → Sample → Sample) : Tile :=
  { t with store := t.store.mapIdx fun i s => if i < t.area then f i s else s }

/-- Replaces the `i`-th sample; there must be one. -/
def set? (t : Tile) (i : Nat) (s : Sample) : Option Tile :=
  if i < t.area then some { t with store := t.store.setIfInBounds i s } else none

/-- Fills in heights from the first sample on; surplus heights are ignored. -/
def withHeights (t : Tile) (heights : Array Float32) : Tile :=
  t.mapSamples fun i s =>
    match heights[i]? with
    | some h => { s with height := h }
    | none => s

/-! ## Reading -/

/-- The sample at a place of the store, also past the tile's own samples. -/
def stored? (t : Tile) (i : Nat) : Option Sample := t.store[i]?

/-- The samples of the tile, row by row. -/
def samples (t : Tile) : Array Sample := t.store.toArray.extract 0 t.area

/-- The samples stored where row `y` lies, if the store reaches that far. -/
def line? (t : Tile) (y : Nat) : Option (Array Sample) :=
  if (y + 1) * t.width ≤ capacity then
    some (t.store.toArray.extract (y * t.width) ((y + 1) * t.width))
  else none

/-- The height stored where the sample at column `x` of row `y` lies, if the store reaches that
    far. -/
def heightAt? (t : Tile) (x y : Nat) : Option Float32 :=
  (t.stored? (y * t.width + x)).map Sample.height

/-- The heights of the tile, row by row. -/
def heights (t : Tile) : Array Float32 := t.samples.map Sample.height

/-- The sample at column `x` of row `y` has its place among the samples of the tile. -/
theorem index_lt_area (t : Tile) {x y : Nat} (hx : x < t.width) (hy : y < t.height) :
    y * t.width + x < t.area :=
  rowMajor_lt hx hy

/-- The store reaches every sample of the tile. -/
theorem exists_stored (t : Tile) {i : Nat} (hi : i < t.area) : ∃ s, t.stored? i = some s :=
  ⟨_, Vector.getElem?_eq_getElem (Nat.lt_of_lt_of_le hi t.area_le)⟩

/-- The rows of the tile end where its samples end, or before. -/
theorem line_le_area (t : Tile) {y : Nat} (hy : y < t.height) : (y + 1) * t.width ≤ t.area := by
  rw [area, Nat.mul_comm t.width]
  exact Nat.mul_le_mul_right _ hy

/-- As far as the store reaches, a row is as long as the tile is wide and holds what is stored
    there. -/
theorem exists_line (t : Tile) {y : Nat} (hend : (y + 1) * t.width ≤ capacity) :
    ∃ row, t.line? y = some row ∧ row.size = t.width ∧
      ∀ x < t.width, row[x]? = t.stored? (y * t.width + x) := by
  have hnext : (y + 1) * t.width = y * t.width + t.width := Nat.succ_mul y t.width
  have hstore : t.store.toArray.size = capacity := t.store.size_toArray
  refine ⟨_, if_pos hend, ?_, fun x hx => ?_⟩
  · rw [Array.size_extract, hstore]
    omega
  · rw [Array.getElem?_extract, if_pos (by rw [hstore]; omega)]
    exact Vector.getElem?_toArray

/-- There is a height at every sample of the tile. -/
theorem exists_height (t : Tile) {x y : Nat} (hx : x < t.width) (hy : y < t.height) :
    ∃ h, t.heightAt? x y = some h := by
  obtain ⟨s, hs⟩ := t.exists_stored (t.index_lt_area hx hy)
  exact ⟨s.height, by rw [heightAt?, hs]; rfl⟩

theorem heightAt?_mapSamples (t : Tile) (f : Nat → Sample → Sample) {x y : Nat} {s : Sample}
    (hx : x < t.width) (hy : y < t.height) (hs : t.stored? (y * t.width + x) = some s) :
    (t.mapSamples f).heightAt? x y = some (f (y * t.width + x) s).height := by
  have hplace : y * t.width + x < t.area := t.index_lt_area hx hy
  have hs' : t.store[y * t.width + x]? = some s := hs
  simp only [heightAt?, stored?, mapSamples, Vector.getElem?_mapIdx, hs', Option.map_some,
    if_pos hplace]

/-- The tile's place and size in words, without its samples. -/
def describe (t : Tile) : String :=
  "Tile \x7b offset_x: " ++ toString t.offsetX ++ ", offset_y: " ++ toString t.offsetY ++
    ", width: " ++ toString t.width ++ ", height: " ++ toString t.height ++ " \x7d"

end Tile

end Relief
