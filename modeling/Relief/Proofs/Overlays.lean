import Relief.Proofs.Deliveries
import Relief.Proofs.Galleries
import Relief.Proofs.Mosaics

set_option autoImplicit false

/-! # Overlays: the pixels of a mosaic after any tiles

Tiles may come in any order, cover each other and reach out of the image. What a mosaic shows in the
end is told pixel by pixel: the sample of the last tile that covers the pixel, and black where there
is none (`pixel?_foldl_add`). It follows from what a single tile does (`pixel?_add`), which is to
replace the pixels of the image that it covers and no other.

A mosaic is settled by its pixels (`ext_pixel?`), so tiles that do not cover each other may come in
any order (`foldl_add_perm`), and a tile that comes again at once changes nothing of the image
(`add_add`). All this is put together with the handles of a mosaic, and with the tiles that a
cancelled frame leaves in it, in `shows_last_covering`. -/

namespace Relief

/-! ## Covering -/

/-- Whether the coordinates of a tile do not wrap around. -/
structure Tile.Fits (t : Tile) : Prop where
  right : t.offsetX + t.width ≤ UInt32.size
  bottom : t.offsetY + t.height ≤ UInt32.size

/-- Whether two rectangles share no pixel. -/
def Rect.Disjoint (r r' : Rect) : Prop := ∀ x y, r.Contains x y → ¬ r'.Contains x y

/-- The last of some tiles that covers a pixel. -/
def Tile.lastOver? (tiles : List Tile) (x y : Nat) : Option Tile :=
  (tiles.filter fun t => decide (t.rect.Contains x y)).getLast?

namespace Tile

variable {tiles : List Tile} {t : Tile} {x y : Nat}

theorem lastOver?_concat (tiles : List Tile) (t : Tile) (x y : Nat) :
    lastOver? (tiles ++ [t]) x y
      = if t.rect.Contains x y then some t else lastOver? tiles x y := by
  unfold lastOver?
  rw [List.filter_append]
  by_cases hcovers : t.rect.Contains x y
  · rw [if_pos hcovers, List.filter_singleton, decide_eq_true hcovers]
    exact List.getLast?_concat
  · rw [if_neg hcovers, List.filter_singleton, decide_eq_false hcovers]
    exact congrArg List.getLast? (List.append_nil _)

theorem covers_of_lastOver? (h : lastOver? tiles x y = some t) : t.rect.Contains x y := by
  have hmem := List.mem_of_getLast? h
  rw [List.mem_filter, decide_eq_true_eq] at hmem
  exact hmem.2

/-- Of tiles that share no pixel at most one covers a given pixel. -/
theorem length_filter_covers_le (hdisjoint : tiles.Pairwise fun t u => t.rect.Disjoint u.rect)
    (x y : Nat) : (tiles.filter fun t => decide (t.rect.Contains x y)).length ≤ 1 := by
  have hpairs := hdisjoint.filter fun t => decide (t.rect.Contains x y)
  have hcovers : ∀ t ∈ tiles.filter fun t => decide (t.rect.Contains x y), t.rect.Contains x y := by
    intro t ht
    simpa using (List.mem_filter.1 ht).2
  cases hfilter : tiles.filter fun t => decide (t.rect.Contains x y) with
  | nil => simp
  | cons t rest =>
      cases rest with
      | nil => simp
      | cons u rest =>
          rw [hfilter] at hpairs hcovers
          have hapart : t.rect.Disjoint u.rect := (List.pairwise_cons.1 hpairs).1 u (by simp)
          exact absurd (hcovers u (by simp)) (hapart x y (hcovers t (by simp)))

/-- So their order does not matter. -/
theorem lastOver?_perm (hdisjoint : tiles.Pairwise fun t u => t.rect.Disjoint u.rect)
    {tiles' : List Tile} (hperm : tiles'.Perm tiles) (x y : Nat) :
    lastOver? tiles' x y = lastOver? tiles x y := by
  have hone := length_filter_covers_le hdisjoint x y
  have hfilter := hperm.filter fun t => decide (t.rect.Contains x y)
  unfold lastOver?
  -- Lists of at most one element have only one order.
  rcases Nat.le_one_iff_eq_zero_or_eq_one.1 hone with hzero | hsingle
  · rw [List.length_eq_zero_iff] at hzero
    rw [hzero] at hfilter ⊢
    rw [List.perm_nil.1 hfilter]
  · obtain ⟨u, hu⟩ := List.length_eq_one_iff.1 hsingle
    rw [hu] at hfilter ⊢
    rw [List.perm_singleton.1 hfilter]

/-- The tile that covers a pixel is then the last one that does. -/
theorem lastOver?_of_disjoint (hdisjoint : tiles.Pairwise fun t u => t.rect.Disjoint u.rect)
    (ht : t ∈ tiles) (hcovers : t.rect.Contains x y) : lastOver? tiles x y = some t := by
  have hone := length_filter_covers_le hdisjoint x y
  have hmem : t ∈ tiles.filter fun t => decide (t.rect.Contains x y) :=
    List.mem_filter.2 ⟨ht, decide_eq_true hcovers⟩
  obtain ⟨u, hu⟩ := List.length_eq_one_iff.1
    (Nat.le_antisymm hone (List.length_pos_of_mem hmem))
  unfold lastOver?
  rw [hu, List.mem_singleton] at hmem
  rw [hu, hmem]
  rfl

theorem lastOver?_eq_none_iff :
    lastOver? tiles x y = none ↔ ∀ t ∈ tiles, ¬ t.rect.Contains x y := by
  simp only [lastOver?, List.getLast?_eq_none_iff, List.filter_eq_nil_iff, decide_eq_true_eq]

/-- The sample that a tile has for a pixel that it covers. -/
def sampleAt? (range : HeightRange) (t : Tile) (x y : Nat) : Option UInt16 :=
  (t.heightAt? (x - t.offsetX) (y - t.offsetY)).map range.quantize

/-- There is a height, and so a sample, wherever a tile covers. -/
theorem exists_heightAt? (hcovers : t.rect.Contains x y) :
    ∃ h, t.heightAt? (x - t.offsetX) (y - t.offsetY) = some h := by
  obtain ⟨⟨hleft, hright⟩, htop, hbottom⟩ := hcovers
  exact t.exists_height (Nat.sub_lt_left_of_lt_add hleft hright)
    (Nat.sub_lt_left_of_lt_add htop hbottom)

end Tile

namespace Mosaic

variable {m : Mosaic} {t : Tile} {tiles : List Tile} {x y : Nat}

/-! ## Mosaics by their pixels -/

/-- Whether a mosaic has a sample for each pixel and no more. -/
def Filled (m : Mosaic) : Prop := m.pixels.size = m.size.area

theorem filled_new (size : Size) (range : HeightRange) : (new size range).Filled :=
  Array.size_replicate

theorem Filled.foldl_add (hm : m.Filled) (tiles : List Tile) : (tiles.foldl add m).Filled := by
  rw [Mosaic.foldl_add]
  exact (size_foldl_apply _ _).trans hm

/-- A mosaic is black before the first tile. -/
theorem pixel?_new {size : Size} (hsize : size.wrapped = size) (range : HeightRange)
    (hx : x < size.width) (hy : y < size.height) : (new size range).pixel? x y = some 0 := by
  simp only [pixel?, new, hsize, hx, hy, and_self, if_true]
  rw [Array.getElem?_replicate, if_pos]
  exact rowMajor_lt hx hy

/-- Two mosaics with the same pixels, of the same size and range and after the same number of tiles
    are the same. -/
theorem ext_pixel? {m' : Mosaic} (hm : m.Filled) (hm' : m'.Filled) (hsize : m.size = m'.size)
    (hrange : m.range = m'.range) (htiles : m.tiles = m'.tiles)
    (hpixel : ∀ x y, x < m.size.width → y < m.size.height → m.pixel? x y = m'.pixel? x y) :
    m = m' := by
  have hpixels : m.pixels = m'.pixels := by
    refine Array.ext (by rw [hm, hm', hsize]) ?_
    intro i hi hi'
    have harea : i < m.size.width * m.size.height := Nat.lt_of_lt_of_eq hi hm
    have hcolumn : i % m.size.width < m.size.width :=
      Nat.mod_lt i (Nat.pos_of_lt_mul_right harea)
    have hrow : i / m.size.width < m.size.height := Nat.div_lt_of_lt_mul harea
    have hplace : i / m.size.width * m.size.width + i % m.size.width = i :=
      ((rowMajor_iff hcolumn).1 ⟨rfl, rfl⟩).symm
    have hsame := hpixel _ _ hcolumn hrow
    simp only [pixel?, ← hsize, hcolumn, hrow, and_self, if_true, hplace] at hsame
    rw [Array.getElem?_eq_getElem hi, Array.getElem?_eq_getElem hi'] at hsame
    exact Option.some.inj hsame
  cases m
  cases m'
  simp_all

/-! ## One tile -/

/-- A tile whose coordinates do not wrap around inside of the image replaces the pixels that it
    covers there, and no other. -/
theorem pixel?_add_of_straight (hm : m.Filled)
    (hright : Straight m.size.width t.offsetX t.width)
    (hbottom : Straight m.size.height t.offsetY t.height) (hx : x < m.size.width)
    (hy : y < m.size.height) :
    (m.add t).pixel? x y
      = if t.rect.Contains x y then t.sampleAt? m.range x y else m.pixel? x y := by
  have hadd : (m.add t).pixels = (writes m.size m.range t).foldl (Write.apply m.size) m.pixels :=
    copyRows_eq_foldl _ _ _ _ _ _
  have hcount : (writes m.size m.range t).countP (·.isAt x y)
      = if t.rect.Contains x y then 1 else 0 := countP_writes hright hbottom hx hy
  have hplace : y * m.size.width + x < m.pixels.size := hm ▸ rowMajor_lt hx hy
  have hinside : ∀ w ∈ writes m.size m.range t, w.x < m.size.width := by
    intro w hw
    obtain ⟨i, j, h, -, -, -, hlt, rfl⟩ := mem_writes hright hbottom hw
    exact hlt
  have hsize : (m.add t).size = m.size := rfl
  simp only [pixel?, hsize, hx, hy, and_self, if_true, hadd]
  by_cases hcovers : t.rect.Contains x y
  · rw [if_pos hcovers] at hcount ⊢
    obtain ⟨h, hheight⟩ := Tile.exists_heightAt? hcovers
    have hsample : t.sampleAt? m.range x y = some (m.range.quantize h) := by
      rw [Tile.sampleAt?, hheight]
      rfl
    rw [hsample]
    refine getElem?_foldl_apply hx hplace hinside ?_
      (Or.inl (List.countP_pos_iff.1 (hcount ▸ Nat.one_pos)))
    -- A write at the pixel is of the sample that the tile has there.
    intro w hw hat
    obtain ⟨i, j, h', -, -, hheight', -, rfl⟩ := mem_writes hright hbottom hw
    obtain ⟨rfl, rfl⟩ := Write.isAt_iff.1 hat
    rw [Nat.add_sub_cancel_left, Nat.add_sub_cancel_left, hheight'] at hheight
    rw [Option.some.inj hheight]
  · rw [if_neg hcovers] at hcount ⊢
    have hnone : ∀ w ∈ writes m.size m.range t, ¬ w.isAt x y = true := List.countP_eq_zero.1 hcount
    rw [Array.getElem?_eq_getElem hplace]
    refine getElem?_foldl_apply hx hplace hinside ?_
      (Or.inr (Array.getElem?_eq_getElem hplace))
    intro w hw hat
    exact absurd hat (hnone w hw)

/-- **A tile replaces the pixels of the image that it covers**, and no other. -/
theorem pixel?_add (hm : m.Filled) (ht : t.Fits) (hx : x < m.size.width) (hy : y < m.size.height) :
    (m.add t).pixel? x y
      = if t.rect.Contains x y then t.sampleAt? m.range x y else m.pixel? x y :=
  pixel?_add_of_straight hm (.inl ht.right) (.inl ht.bottom) hx hy

/-! ## Any tiles -/

/-- **A pixel shows the last tile that covers it**, and what it showed before where none does. -/
theorem pixel?_foldl_add (hm : m.Filled) (hfits : ∀ t ∈ tiles, t.Fits) (hx : x < m.size.width)
    (hy : y < m.size.height) :
    (tiles.foldl add m).pixel? x y
      = (Tile.lastOver? tiles x y).elim (m.pixel? x y) fun t => t.sampleAt? m.range x y := by
  -- On the tiles from the end: the last tile decides, or leaves it to the ones before.
  induction tiles using List.reverseRecOn with
  | nil => rfl
  | append_singleton tiles t ih =>
      have hbefore := ih fun u hu => hfits u (List.mem_append_left _ hu)
      have hfilled := hm.foldl_add tiles
      have hsettings : (tiles.foldl add m).size = m.size ∧ (tiles.foldl add m).range = m.range := by
        rw [Mosaic.foldl_add]
        exact ⟨rfl, rfl⟩
      obtain ⟨hsize, hrange⟩ := hsettings
      rw [List.foldl_append, List.foldl_cons, List.foldl_nil,
        pixel?_add hfilled (hfits t (by simp)) (hsize ▸ hx) (hsize ▸ hy), hrange, hbefore,
        Tile.lastOver?_concat]
      split <;> rfl

/-- **Tiles that share no pixel may come in any order.** -/
theorem foldl_add_perm (hm : m.Filled) (hfits : ∀ t ∈ tiles, t.Fits)
    (hdisjoint : tiles.Pairwise fun t u => t.rect.Disjoint u.rect) {tiles' : List Tile}
    (hperm : tiles'.Perm tiles) : tiles'.foldl add m = tiles.foldl add m := by
  have hfits' : ∀ t ∈ tiles', t.Fits := fun t ht => hfits t (hperm.mem_iff.1 ht)
  refine ext_pixel? (hm.foldl_add tiles') (hm.foldl_add tiles) ?_ ?_ ?_ ?_
  · rw [Mosaic.foldl_add, Mosaic.foldl_add]
  · rw [Mosaic.foldl_add, Mosaic.foldl_add]
  · rw [Mosaic.foldl_add, Mosaic.foldl_add, hperm.length_eq]
  · intro x y hx hy
    rw [Mosaic.foldl_add] at hx hy
    rw [pixel?_foldl_add hm hfits' hx hy, pixel?_foldl_add hm hfits hx hy,
      Tile.lastOver?_perm hdisjoint hperm]

/-- **A tile that comes again at once only counts.** -/
theorem add_add (hm : m.Filled) (ht : t.Fits) :
    (m.add t).add t = { m.add t with tiles := (m.add t).tiles + 1 } := by
  have honce : (m.add t).Filled := hm.foldl_add [t]
  refine ext_pixel? (hm.foldl_add [t, t]) honce rfl rfl rfl ?_
  intro x y hx hy
  have hagain := pixel?_add honce ht hx hy
  have hfirst := pixel?_add hm ht hx hy
  show ((m.add t).add t).pixel? x y = (m.add t).pixel? x y
  rw [hagain, hfirst]
  split <;> rfl

end Mosaic

/-! ## The tiles of a frame -/

namespace TileRenderer

variable {σ : Type} {r : TileRenderer σ} {field : Field Float32} {k : Nat}

theorem mem_firstTiles {t : Tile} :
    t ∈ r.firstTiles field k ↔ ∃ i, i < k ∧ t = r.tileAt field i := by
  simp only [firstTiles, List.mem_map, List.mem_range, eq_comm]

/-- The tiles of a frame share no pixel. -/
theorem pairwise_firstTiles (field : Field Float32) (hk : k ≤ Frame.cellCount r.size) :
    (r.firstTiles field k).Pairwise fun t u => t.rect.Disjoint u.rect := by
  unfold firstTiles
  rw [List.pairwise_map]
  refine List.pairwise_lt_range.imp_of_mem ?_
  intro i j hi hj hlt x y hcovers hcovers'
  rw [rect_tileAt] at hcovers hcovers'
  have hcell := Nat.lt_of_lt_of_le (List.mem_range.1 hi) hk
  exact absurd (Frame.cell_disjoint hcell hcovers hcovers') (Nat.ne_of_lt hlt)

/-- Their coordinates do not wrap around if those of the raster do not. -/
theorem fits_of_mem_firstTiles (hwidth : r.size.width < UInt32.size)
    (hheight : r.size.height < UInt32.size) (hk : k ≤ Frame.cellCount r.size) :
    ∀ t ∈ r.firstTiles field k, t.Fits := by
  intro t ht
  obtain ⟨i, hi, rfl⟩ := mem_firstTiles.1 ht
  obtain ⟨hright, hbottom⟩ := tileAt_inside (r := r) field (Nat.lt_of_lt_of_le hi hk)
  exact ⟨by omega, by omega⟩

end TileRenderer

/-! ## Main result -/

/-- What a mosaic shows for a tile that covers a pixel. -/
theorem Mosaic.pixel?_of_lastOver? {m : Mosaic} (hm : m.Filled) {tiles : List Tile}
    (hfits : ∀ t ∈ tiles, t.Fits) {x y : Nat} (hx : x < m.size.width) (hy : y < m.size.height)
    {t : Tile} (ht : Tile.lastOver? tiles x y = some t) :
    ∃ h, t.heightAt? (x - t.offsetX) (y - t.offsetY) = some h ∧
      (tiles.foldl Mosaic.add m).pixel? x y = some (m.range.quantize h) := by
  obtain ⟨h, hheight⟩ := Tile.exists_heightAt? (Tile.covers_of_lastOver? ht)
  refine ⟨h, hheight, ?_⟩
  rw [pixel?_foldl_add hm hfits hx hy, ht]
  simp only [Option.elim_some, Tile.sampleAt?, hheight, Option.map_some]

/-- What a mosaic that was black shows after some tiles, covered or not. -/
theorem Mosaic.pixel?_overlay {size : Size} (hsize : size.wrapped = size) (range : HeightRange)
    {tiles : List Tile} (hfits : ∀ t ∈ tiles, t.Fits) {x y : Nat} (hx : x < size.width)
    (hy : y < size.height) :
    (∀ t, Tile.lastOver? tiles x y = some t →
      ∃ h, t.heightAt? (x - t.offsetX) (y - t.offsetY) = some h ∧
        (tiles.foldl add (new size range)).pixel? x y = some (range.quantize h)) ∧
    ((∀ t ∈ tiles, ¬ t.rect.Contains x y) →
      (tiles.foldl add (new size range)).pixel? x y = some 0) := by
  have hblank : (new size range).Filled := filled_new size range
  have hsame : (new size range).size = size := hsize
  have hx' : x < (new size range).size.width := by rwa [hsame]
  have hy' : y < (new size range).size.height := by rwa [hsame]
  constructor
  · intro t ht
    exact pixel?_of_lastOver? hblank hfits hx' hy' ht
  · intro hnone
    rw [pixel?_foldl_add hblank hfits hx' hy', Tile.lastOver?_eq_none_iff.2 hnone]
    exact pixel?_new hsize range hx hy

/-- The first tiles of a frame share no pixel, so the one that covers a pixel is the last that
    does. -/
theorem Mosaic.pixel?_overlay_firstTiles {size : Size} (hsize : size.wrapped = size)
    (range : HeightRange) {σ : Type} {r : TileRenderer σ} (hwidth : r.size.width < UInt32.size)
    (hheight : r.size.height < UInt32.size) {k : Nat} (hk : k ≤ Frame.cellCount r.size)
    (field : Field Float32) {x y : Nat} (hx : x < size.width) (hy : y < size.height) :
    (∀ i, i < k → (r.tileAt field i).rect.Contains x y →
      ∃ h, (r.tileAt field i).heightAt? (x - (r.tileAt field i).offsetX)
          (y - (r.tileAt field i).offsetY) = some h ∧
        ((r.firstTiles field k).foldl add (new size range)).pixel? x y
          = some (range.quantize h)) ∧
    ((∀ i, i < k → ¬ (r.tileAt field i).rect.Contains x y) →
      ((r.firstTiles field k).foldl add (new size range)).pixel? x y = some 0) := by
  have hdisjoint := TileRenderer.pairwise_firstTiles field hk
  have hfits : ∀ t ∈ r.firstTiles field k, t.Fits :=
    TileRenderer.fits_of_mem_firstTiles hwidth hheight hk
  obtain ⟨hcovered, hbare⟩ := pixel?_overlay hsize range hfits hx hy
  constructor
  · intro i hi hcovers
    have hmem : r.tileAt field i ∈ r.firstTiles field k :=
      TileRenderer.mem_firstTiles.2 ⟨i, hi, rfl⟩
    exact hcovered _ (Tile.lastOver?_of_disjoint hdisjoint hmem hcovers)
  · intro hnone
    refine hbare ?_
    intro t ht
    obtain ⟨i, hi, rfl⟩ := TileRenderer.mem_firstTiles.1 ht
    exact hnone i hi

/-- **Every pixel of a mosaic shows the last tile that covers it**, at the place of the tile where
    the pixel lies, and a pixel that no tile covers is black. The tiles may cover each other and
    reach out of the image, as long as their coordinates do not wrap around. So tiles that share no
    pixel may come in any order, and a tile that comes again at once only counts. All handles to the
    mosaic show this, whichever of them a tile was added through and whenever they were cloned.

    A run that was cancelled, whatever other tasks did in the meantime, leaves in the mosaic exactly
    the tiles that its result accounts for, the first ones of its frame, each in its place. -/
theorem shows_last_covering {size : Size} (hwidth : size.width < UInt32.size)
    (hheight : size.height < UInt32.size) (range : HeightRange) :
    let blank := Mosaic.new size range
    (∀ tiles : List Tile, (∀ t ∈ tiles, t.Fits) →
      let m := tiles.foldl Mosaic.add blank
      m.size = size ∧ m.tiles = tiles.length ∧
      (∀ x y, x < size.width → y < size.height →
        (∀ t, Tile.lastOver? tiles x y = some t →
          ∃ h, t.heightAt? (x - t.offsetX) (y - t.offsetY) = some h ∧
            m.pixel? x y = some (range.quantize h)) ∧
        ((∀ t ∈ tiles, ¬ t.rect.Contains x y) → m.pixel? x y = some 0)) ∧
      (tiles.Pairwise (fun t u => t.rect.Disjoint u.rect) →
        ∀ tiles' : List Tile, tiles'.Perm tiles → tiles'.foldl Mosaic.add blank = m) ∧
      ∀ t, t.Fits → (m.add t).add t = { m.add t with tiles := (m.add t).tiles + 1 }) ∧
    (∀ (g : Gallery) (calls : List Gallery.Call),
      let opened := g.serve (.create size range)
      let k := g.mosaics.length
      (opened.follow calls).handles[g.handles.length]? = some k ∧
      ∀ handle, (opened.follow calls).handles[handle]? = some k →
        (opened.follow calls).shown? handle
          = some ((opened.received k calls).foldl Mosaic.add blank)) ∧
    ∀ (σ : Type) (job : RenderJob) (h : RenderJob.Handle σ) (meanwhile : σ → σ → Prop)
      (r : TileRenderer σ) (s : σ) (view : σ → Mosaic) (e : RenderJob.Ended σ) (k total : Nat),
      job.Runs h meanwhile r s e → e.result = .error (.error (.cancelled k total)) →
      Session.Sees view (fun t m => m.add t) r.observers →
      (∀ s s', meanwhile s s' → view s' = view s) → view s = blank →
      r.size.width < UInt32.size → r.size.height < UInt32.size →
      (r.height = none → k = 0 ∧ view e.state = blank) ∧
      ∀ field, r.height = some field →
        (view e.state).tiles = k ∧
        (∀ i, (r.tileAt field i).offsetX = 256 * (i % ((r.size.width + 255) / 256)) ∧
          (r.tileAt field i).offsetY = 256 * (i / ((r.size.width + 255) / 256))) ∧
        ∀ x y, x < size.width → y < size.height →
          (∀ i, i < k → (r.tileAt field i).rect.Contains x y →
            ∃ h, (r.tileAt field i).heightAt? (x - (r.tileAt field i).offsetX)
                (y - (r.tileAt field i).offsetY) = some h ∧
              (view e.state).pixel? x y = some (range.quantize h)) ∧
          ((∀ i, i < k → ¬ (r.tileAt field i).rect.Contains x y) →
            (view e.state).pixel? x y = some 0) := by
  intro blank
  have hwrapped : size.wrapped = size := Size.wrapped_of_lt hwidth hheight
  have hblank : blank.Filled := Mosaic.filled_new size range
  refine ⟨?_, ?_, ?_⟩
  · intro tiles hfits m
    have hm : m.size = size ∧ m.tiles = tiles.length := by
      have hadd : m = _ := Mosaic.foldl_add blank tiles
      rw [hadd]
      exact ⟨hwrapped, Nat.zero_add _⟩
    refine ⟨hm.1, hm.2, fun x y hx hy => Mosaic.pixel?_overlay hwrapped range hfits hx hy, ?_, ?_⟩
    · intro hdisjoint tiles' hperm
      exact Mosaic.foldl_add_perm hblank hfits hdisjoint hperm
    · intro t ht
      exact Mosaic.add_add (hblank.foldl_add tiles) ht
  · intro g calls opened k
    obtain ⟨hmosaic, hhandle⟩ := Gallery.created g size range calls
    refine ⟨hhandle, ?_⟩
    intro handle hleads
    exact Gallery.shown?_follow hmosaic calls hleads
  · intro σ job h meanwhile r s view e k total hrun hresult hsees hkeeps hview hcolumns hrows
    have haccounted : RenderJob.accounted? e.result = some k := by
      rw [hresult]
      rfl
    obtain ⟨-, hk, hcounted, hstate⟩ := hrun.shown hsees hkeeps haccounted
    rw [hview] at hstate
    constructor
    · intro hnone
      rw [TileRenderer.drawable, hnone] at hcounted hstate
      exact ⟨hcounted.symm, hstate⟩
    · intro field hfield
      rw [TileRenderer.drawable_of_field hfield] at hstate
      refine ⟨?_, ?_, ?_⟩
      · rw [hstate, Mosaic.foldl_add, TileRenderer.length_firstTiles]
        exact Nat.zero_add k
      · intro i
        rw [← Frame.tilesAlong_eq_div, Nat.mul_comm, Nat.mul_comm 256]
        exact ⟨rfl, rfl⟩
      · intro x y hx hy
        rw [hstate]
        exact Mosaic.pixel?_overlay_firstTiles hwrapped range hcolumns hrows hk field hx hy

/-- A tile that reaches out of the image at its corner, and a smaller one over it. -/
theorem shows_last_covering_corner :
    let size : Size := ⟨3, 2⟩
    let t := TileRenderer.render (fun _ => Binary32.one) .raster size
      (Tile.blank 2 1 4 4 (by decide))
    let u := TileRenderer.render (fun _ => Binary32.half) .raster size
      (Tile.blank 2 1 1 1 (by decide))
    let m := [t, u].foldl Mosaic.add (Mosaic.new size .unit)
    size.width < UInt32.size ∧ size.height < UInt32.size ∧ t.Fits ∧ u.Fits ∧ m.tiles = 2 ∧
      m.pixel? 2 1 = some 32767 ∧ m.pixel? 1 1 = some 0 := by
  intro size t u m
  have hwidth : size.width < UInt32.size := by decide
  have hheight : size.height < UInt32.size := by decide
  have ht : t.Fits := ⟨by decide, by decide⟩
  have hu : u.Fits := ⟨by decide, by decide⟩
  have hfits : ∀ v ∈ [t, u], v.Fits := by
    intro v hv
    rcases List.mem_pair.1 hv with rfl | rfl
    · exact ht
    · exact hu
  have hlast : Tile.lastOver? [t, u] 2 1 = some u := by
    rw [show [t, u] = [t] ++ [u] from rfl, Tile.lastOver?_concat, if_pos (by decide)]
  have hnone : ∀ v ∈ [t, u], ¬ v.rect.Contains 1 1 := by
    intro v hv
    rcases List.mem_pair.1 hv with rfl | rfl <;> decide
  obtain ⟨hobserved, -⟩ := shows_last_covering hwidth hheight .unit
  obtain ⟨-, htiles, hpixels, -⟩ := hobserved [t, u] hfits
  obtain ⟨h, hheightAt, hpixel⟩ := (hpixels 2 1 (by decide) (by decide)).1 u hlast
  have hhalf : u.heightAt? 0 0 = some Binary32.half :=
    TileRenderer.heightAt?_render _ _ _ _ (by decide) (by decide)
  have hsample : HeightRange.unit.quantize h = 32767 := by
    rw [← Option.some.inj (hhalf.symm.trans hheightAt)]
    decide
  exact ⟨hwidth, hheight, ht, hu, htiles, hsample ▸ hpixel,
    (hpixels 1 1 (by decide) (by decide)).2 hnone⟩

end Relief
