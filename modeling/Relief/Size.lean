set_option autoImplicit false

/-! # Sizes of rasters and images

A raster and an image keep their pixels row by row: the one at column `x` of row `y` has the place
`y * width + x` (`rowMajor_iff`, `rowMajor_inj`, `rowMajor_lt`). -/

namespace Relief

/-- A width and a height in pixels. -/
structure Size where
  width : Nat
  height : Nat
deriving DecidableEq, Repr

/-- The number of pixels. -/
def Size.area (s : Size) : Nat := s.width * s.height

/-- The sizes of image files are 32 bits wide: both sides are taken modulo `2 ^ 32`. -/
def Size.wrapped (s : Size) : Size := ⟨s.width % UInt32.size, s.height % UInt32.size⟩

/-- A size that needs no more bits stays. -/
theorem Size.wrapped_of_lt {size : Size} (hwidth : size.width < UInt32.size)
    (hheight : size.height < UInt32.size) : size.wrapped = size := by
  have hcolumns : size.width % UInt32.size = size.width := Nat.mod_eq_of_lt hwidth
  have hrows : size.height % UInt32.size = size.height := Nat.mod_eq_of_lt hheight
  rw [Size.wrapped, hcolumns, hrows]

/-- Column and row of a place in the row-by-row order of a grid with `w` columns. -/
theorem rowMajor_iff {w i x y : Nat} (hx : x < w) : (i % w = x ∧ i / w = y) ↔ i = y * w + x := by
  constructor
  · rintro ⟨rfl, rfl⟩
    rw [Nat.mul_comm]
    exact (Nat.div_add_mod i w).symm
  · rintro rfl
    rw [Nat.mul_comm, Nat.mul_add_mod, Nat.mod_eq_of_lt hx, Nat.mul_add_div (by omega),
      Nat.div_eq_of_lt hx]
    exact ⟨rfl, rfl⟩

/-- A place of a grid has one column and one row. -/
theorem rowMajor_inj {w x y x' y' : Nat} (hx : x < w) (hx' : x' < w)
    (h : y * w + x = y' * w + x') : x = x' ∧ y = y' := by
  obtain ⟨hcolumn, hrow⟩ := (rowMajor_iff hx).2 h.symm
  obtain ⟨hcolumn', hrow'⟩ := (rowMajor_iff hx').2 (rfl : y' * w + x' = _)
  exact ⟨hcolumn.symm.trans hcolumn', hrow.symm.trans hrow'⟩

/-- The places of a grid are numbered below its area. -/
theorem rowMajor_lt {w h x y : Nat} (hx : x < w) (hy : y < h) : y * w + x < w * h := by
  calc y * w + x < y * w + w := by omega
    _ = (y + 1) * w := (Nat.succ_mul _ _).symm
    _ ≤ h * w := Nat.mul_le_mul_right _ hy
    _ = w * h := Nat.mul_comm _ _

end Relief
