import Relief.Preview.Mosaic
import Relief.Proofs.Tiling

set_option autoImplicit false

/-! # Mosaics: what is written where

A mosaic takes a tile sample by sample, and the first sample that lies outside of the image ends its
row. Here a tile is the list of the samples that do get written (`writes`), and taking it is to
write these in turn (`foldl_add`). As long as no coordinate wraps around, the samples are the ones
that the tile has at the pixels (`mem_writes`), and each pixel that the tile covers is written
exactly once (`countP_writes`). -/

namespace Relief.Mosaic

variable {size : Size} {range : HeightRange} {t : Tile} {x y px py : Nat}

/-- A sample that is copied into an image. -/
structure Write where
  x : Nat
  y : Nat
  sample : UInt16

/-- Whether a sample goes to a pixel. -/
def Write.isAt (w : Write) (x y : Nat) : Bool := w.x == x && w.y == y

/-- Writes a sample. -/
def Write.apply (size : Size) (pixels : Array UInt16) (w : Write) : Array UInt16 :=
  pixels.setIfInBounds (w.y * size.width + w.x) w.sample

/-- The samples of a tile's row from column `x` on that are written into row `py` of an image. -/
def rowWrites (width : Nat) (range : HeightRange) (offsetX py : Nat) :
    (x : Nat) → List Sample → List Write
  | _, [] => []
  | x, sample :: rest =>
    let px := wrap (offsetX + x)
    if width ≤ px then []
    else ⟨px, py, range.quantize sample.height⟩ :: rowWrites width range offsetX py (x + 1) rest

/-- The samples of `rows` rows of a tile from row `y` on that are written. -/
def rowsWrites (size : Size) (range : HeightRange) (t : Tile) : (rows y : Nat) → List Write
  | 0, _ => []
  | rows + 1, y =>
    let py := wrap (t.offsetY + y)
    if size.height ≤ py then []
    else
      rowWrites size.width range t.offsetX py 0 ((t.line? y).getD #[]).toList
        ++ rowsWrites size range t rows (y + 1)

/-- The samples of a tile that are written. -/
def writes (size : Size) (range : HeightRange) (t : Tile) : List Write :=
  rowsWrites size range t t.height 0

@[simp]
theorem Write.isAt_iff {w : Write} : w.isAt x y = true ↔ w.x = x ∧ w.y = y := by
  rw [isAt, Bool.and_eq_true, beq_iff_eq, beq_iff_eq]

/-! ## Taking a tile -/

theorem copyRow_eq_foldl (size : Size) (range : HeightRange) (offsetX py x : Nat)
    (line : List Sample) (pixels : Array UInt16) :
    copyRow size range offsetX py x line pixels
      = (rowWrites size.width range offsetX py x line).foldl (Write.apply size) pixels := by
  induction line generalizing x pixels with
  | nil => rfl
  | cons sample rest ih =>
      simp only [copyRow, rowWrites]
      split
      · rfl
      · rw [List.foldl_cons]
        exact ih (x + 1) _

theorem copyRows_eq_foldl (size : Size) (range : HeightRange) (t : Tile) (rows y : Nat)
    (pixels : Array UInt16) :
    copyRows size range t rows y pixels
      = (rowsWrites size range t rows y).foldl (Write.apply size) pixels := by
  induction rows generalizing y pixels with
  | zero => rfl
  | succ rows ih =>
      simp only [copyRows, rowsWrites]
      split
      · rfl
      · rw [List.foldl_append, ← copyRow_eq_foldl]
        exact ih (y + 1) _

/-- **Taking tiles is writing their samples in turn.** -/
theorem foldl_add (m : Mosaic) (tiles : List Tile) :
    tiles.foldl add m = { m with
      pixels := (tiles.flatMap (writes m.size m.range)).foldl (Write.apply m.size) m.pixels
      tiles := m.tiles + tiles.length } := by
  induction tiles generalizing m with
  | nil => rfl
  | cons t rest ih =>
      rw [List.foldl_cons, ih, List.flatMap_cons, List.foldl_append, List.length_cons]
      simp only [add, copyRows_eq_foldl, writes, Nat.add_assoc, Nat.add_comm 1]

/-! ## The samples that are written -/

theorem wrap_of_lt {n : Nat} (hn : n < UInt32.size) : wrap n = n := Nat.mod_eq_of_lt hn

/-- Whether `length` samples from `start` on reach the far end of a side of the image, or their own
    end, before their coordinates wrap around. -/
def Straight (side start length : Nat) : Prop :=
  start + length ≤ UInt32.size ∨ start < UInt32.size ∧ side < UInt32.size

theorem Straight.lt {side start length : Nat} (h : Straight side start (length + 1)) :
    start < UInt32.size := by
  unfold Straight at h
  omega

/-- Inside of the image one sample more is no nearer to wrapping around. -/
theorem Straight.next {side start length : Nat} (h : Straight side start (length + 1))
    (hinside : start < side) : Straight side (start + 1) length := by
  unfold Straight at h ⊢
  omega

theorem mem_rowWrites {width offsetX : Nat} {samples : List Sample} {w : Write}
    (hwrap : Straight width (offsetX + x) samples.length)
    (hw : w ∈ rowWrites width range offsetX py x samples) :
    ∃ i s, samples[i]? = some s ∧ offsetX + x + i < width ∧
      w = ⟨offsetX + x + i, py, range.quantize s.height⟩ := by
  induction samples generalizing x with
  | nil => cases hw
  | cons sample rest ih =>
      rw [List.length_cons] at hwrap
      simp only [rowWrites, wrap_of_lt hwrap.lt] at hw
      split at hw
      · cases hw
      · next hinside =>
        rcases List.mem_cons.1 hw with rfl | hw
        · exact ⟨0, sample, rfl, Nat.lt_of_not_le hinside, rfl⟩
        · obtain ⟨i, s, hi, hlt, rfl⟩ := ih (hwrap.next (Nat.lt_of_not_le hinside)) hw
          have hnext : offsetX + (x + 1) + i = offsetX + x + (i + 1) := by omega
          rw [hnext] at hlt ⊢
          exact ⟨i + 1, s, hi, hlt, rfl⟩

theorem countP_rowWrites {width offsetX row : Nat} {samples : List Sample}
    (hwrap : Straight width (offsetX + x) samples.length) :
    (rowWrites width range offsetX row x samples).countP (·.isAt px py)
      = if row = py ∧ px < width ∧ offsetX + x ≤ px ∧ px < offsetX + x + samples.length
        then 1 else 0 := by
  induction samples generalizing x with
  | nil =>
      rw [if_neg (by rw [List.length_nil]; omega)]
      rfl
  | cons sample rest ih =>
      rw [List.length_cons] at hwrap ⊢
      simp only [rowWrites, wrap_of_lt hwrap.lt]
      split
      · rw [if_neg (by omega)]
        rfl
      · next hinside =>
        -- The pixel is the first one of the row, or one of the rest.
        rw [List.countP_cons, ih (hwrap.next (Nat.lt_of_not_le hinside))]
        simp only [Write.isAt_iff]
        split <;> split <;> split <;> omega

/-- The row of a tile as it is read for copying. -/
theorem line_of_lt (hy : y < t.height) :
    ((t.line? y).getD #[]).toList.length = t.width ∧
      ∀ i < t.width, ((t.line? y).getD #[]).toList[i]? = t.stored? (y * t.width + i) := by
  obtain ⟨row, hrow, hsize, hread⟩ :=
    t.exists_line (Nat.le_trans (t.line_le_area hy) t.area_le)
  rw [hrow, Option.getD_some]
  refine ⟨by rw [Array.length_toList, hsize], fun i hi => ?_⟩
  rw [Array.getElem?_toList, hread i hi]

theorem mem_rowsWrites {rows : Nat} {w : Write} (hrows : y + rows ≤ t.height)
    (hx : Straight size.width t.offsetX t.width) (hy : Straight size.height (t.offsetY + y) rows)
    (hw : w ∈ rowsWrites size range t rows y) :
    ∃ i j h, i < t.width ∧ j < t.height ∧ t.heightAt? i j = some h ∧ t.offsetX + i < size.width ∧
      w = ⟨t.offsetX + i, t.offsetY + j, range.quantize h⟩ := by
  induction rows generalizing y with
  | zero => cases hw
  | succ rows ih =>
      obtain ⟨hlength, hline⟩ := line_of_lt (t := t) (y := y) (by omega)
      simp only [rowsWrites, wrap_of_lt hy.lt] at hw
      split at hw
      · cases hw
      · next hinside =>
        rcases List.mem_append.1 hw with hw | hw
        · obtain ⟨i, s, hs, hlt, rfl⟩ := mem_rowWrites (by rw [hlength]; exact hx) hw
          have hi : i < t.width := hlength ▸ (List.getElem?_eq_some_iff.1 hs).1
          have hheight : t.heightAt? i y = some s.height := by
            rw [Tile.heightAt?, ← hline i hi, hs]
            rfl
          exact ⟨i, y, s.height, hi, by omega, hheight, hlt, rfl⟩
        · exact ih (by omega) (hy.next (Nat.lt_of_not_le hinside)) hw

/-- A tile whose coordinates do not wrap around writes its own samples, at their places and inside
    of the image. -/
theorem mem_writes {w : Write} (hx : Straight size.width t.offsetX t.width)
    (hy : Straight size.height t.offsetY t.height) (hw : w ∈ writes size range t) :
    ∃ i j h, i < t.width ∧ j < t.height ∧ t.heightAt? i j = some h ∧ t.offsetX + i < size.width ∧
      w = ⟨t.offsetX + i, t.offsetY + j, range.quantize h⟩ :=
  mem_rowsWrites (y := 0) (by rw [Nat.zero_add]) hx hy hw

theorem countP_rowsWrites {rows : Nat} (hrows : y + rows ≤ t.height)
    (hx : Straight size.width t.offsetX t.width) (hy : Straight size.height (t.offsetY + y) rows) :
    (rowsWrites size range t rows y).countP (·.isAt px py)
      = if (px < size.width ∧ t.offsetX ≤ px ∧ px < t.offsetX + t.width) ∧
          py < size.height ∧ t.offsetY + y ≤ py ∧ py < t.offsetY + y + rows
        then 1 else 0 := by
  induction rows generalizing y with
  | zero =>
      rw [if_neg (by omega)]
      rfl
  | succ rows ih =>
      obtain ⟨hlength, -⟩ := line_of_lt (t := t) (y := y) (by omega)
      simp only [rowsWrites, wrap_of_lt hy.lt]
      split
      · rw [if_neg (by omega)]
        rfl
      · next hinside =>
        rw [List.countP_append, countP_rowWrites (by rw [hlength]; exact hx),
          ih (by omega) (hy.next (Nat.lt_of_not_le hinside)), hlength]
        split <;> split <;> split <;> omega

/-- **A tile writes each pixel of the image that it covers once**, and no other. -/
theorem countP_writes (hx : Straight size.width t.offsetX t.width)
    (hy : Straight size.height t.offsetY t.height) (hpx : px < size.width)
    (hpy : py < size.height) :
    (writes size range t).countP (·.isAt px py) = if t.rect.Contains px py then 1 else 0 := by
  rw [writes, countP_rowsWrites (y := 0) (by rw [Nat.zero_add]) hx hy]
  refine if_congr ?_ rfl rfl
  simp only [Tile.rect, Rect.Contains, hpx, hpy, true_and, Nat.add_zero]

/-! ## The pixels afterwards -/

theorem size_foldl_apply (ws : List Write) (pixels : Array UInt16) :
    (ws.foldl (Write.apply size) pixels).size = pixels.size := by
  induction ws generalizing pixels with
  | nil => rfl
  | cons w rest ih => rw [List.foldl_cons, ih, Write.apply, Array.size_setIfInBounds]

/-- A pixel that is written, and always with one sample, holds this sample in the end. -/
theorem getElem?_foldl_apply {ws : List Write} {pixels : Array UInt16} {q : UInt16}
    (hpx : px < size.width) (hplace : py * size.width + px < pixels.size)
    (hinside : ∀ w ∈ ws, w.x < size.width)
    (hsample : ∀ w ∈ ws, w.isAt px py = true → w.sample = q)
    (hwritten : (∃ w ∈ ws, w.isAt px py = true) ∨ pixels[py * size.width + px]? = some q) :
    (ws.foldl (Write.apply size) pixels)[py * size.width + px]? = some q := by
  induction ws generalizing pixels with
  | nil =>
      rcases hwritten with ⟨w, hw, -⟩ | hq
      · cases hw
      · exact hq
  | cons w rest ih =>
      rw [List.foldl_cons]
      refine ih (by rwa [Write.apply, Array.size_setIfInBounds])
        (fun w' hw' => hinside w' (List.mem_cons_of_mem _ hw'))
        (fun w' hw' => hsample w' (List.mem_cons_of_mem _ hw')) ?_
      rw [Write.apply, Array.getElem?_setIfInBounds]
      by_cases hat : w.isAt px py = true
      · -- Later samples for this pixel are the same.
        obtain ⟨rfl, rfl⟩ := Write.isAt_iff.1 hat
        rw [if_pos rfl, if_pos hplace, hsample w (List.mem_cons_self ..) hat]
        exact Or.inr rfl
      · have hne : w.y * size.width + w.x ≠ py * size.width + px := by
          intro heq
          exact hat (Write.isAt_iff.2 (rowMajor_inj (hinside w (List.mem_cons_self ..)) hpx heq))
        rw [if_neg hne]
        refine hwritten.imp ?_ id
        rintro ⟨w', hw', hat'⟩
        rcases List.mem_cons.1 hw' with rfl | hw'
        · exact absurd hat' hat
        · exact ⟨w', hw', hat'⟩

end Relief.Mosaic
