import Relief.Proofs.Session

set_option autoImplicit false

/-! # Stores: one store behind every view of a tile

A tile is read in three ways: as its samples in one piece, row by row, and height by height. All
three read the same store, but each finds its place there by itself: the samples are a piece from
the front, a row is a piece as long as the tile is wide, a height has a number computed from its
column and its row. They agree on every tile, because its rows follow each other without a gap
(`samples_eq_lines`) and the place of a height is its column in its row (`exists_sample`).

The store is larger than most tiles. Whoever writes to a tile is lent its samples and nothing else
(`lend`), so what lies behind them stays as it was (`Holds.lend`), and a tile that began blank ends
with zeros there after any history of such uses (`Holds.lendAll`). The ways of writing that a tile
has are such uses (`mapSamples_eq_lend`, `set?_eq_lend`), and rendering is one of them, so the tiles
of a renderer end with zeros as well (`Session.holds_delivered`). What this means for the views is
put together in `views_agree`. -/

namespace Relief

namespace Tile

/-! ## Reading -/

@[simp]
theorem size_samples (t : Tile) : t.samples.size = t.area := by
  have hfits : t.area ≤ capacity := t.area_le
  rw [samples, Array.size_extract, t.store.size_toArray]
  omega

/-- The samples of a tile are stored at the front. -/
theorem getElem?_samples (t : Tile) {i : Nat} (hi : i < t.area) : t.samples[i]? = t.stored? i := by
  have hfits : t.area ≤ capacity := t.area_le
  rw [samples, Array.getElem?_extract, if_pos (by rw [t.store.size_toArray]; omega), Nat.zero_add]
  exact Vector.getElem?_toArray

/-- Rows that are read from the top on are a piece of the store. -/
theorem exists_lines (t : Tile) {n : Nat} (hn : n * t.width ≤ capacity) :
    ∃ rows, (List.range n).mapM t.line? = some rows ∧
      (t.store.toArray.extract 0 (n * t.width)).toList = rows.flatMap Array.toList := by
  induction n with
  | zero =>
      refine ⟨[], rfl, ?_⟩
      rw [Nat.zero_mul, Array.extract_zero]
      rfl
  | succ n ih =>
      have hle : n * t.width ≤ (n + 1) * t.width := Nat.mul_le_mul_right _ (Nat.le_succ n)
      obtain ⟨rows, hrows, hflat⟩ := ih (Nat.le_trans hle hn)
      have hline : t.line? n
          = some (t.store.toArray.extract (n * t.width) ((n + 1) * t.width)) := if_pos hn
      refine ⟨rows ++ [t.store.toArray.extract (n * t.width) ((n + 1) * t.width)], ?_, ?_⟩
      · rw [List.range_succ, List.mapM_append, hrows]
        simp [hline]
      · rw [List.flatMap_append, ← hflat, List.flatMap_singleton, ← Array.toList_append,
          Array.extract_append_extract, Nat.zero_min, Nat.max_eq_right hle]

/-- **The samples of a tile are its rows, one after the other.** -/
theorem samples_eq_lines (t : Tile) :
    ∃ rows, (List.range t.height).mapM t.line? = some rows ∧
      t.samples.toList = rows.flatMap Array.toList := by
  have harea : t.height * t.width = t.area := Nat.mul_comm ..
  obtain ⟨rows, hrows, hflat⟩ := t.exists_lines (Nat.le_trans (Nat.le_of_eq harea) t.area_le)
  rw [harea] at hflat
  exact ⟨rows, hrows, hflat⟩

/-- **A sample is found in all three ways**: in its row, among the samples and by its height. -/
theorem exists_sample (t : Tile) {y : Nat} (hy : y < t.height) :
    ∃ row, t.line? y = some row ∧ row.size = t.width ∧ ∀ x < t.width, ∃ s, row[x]? = some s ∧
      t.samples[y * t.width + x]? = some s ∧ t.heightAt? x y = some s.height := by
  obtain ⟨row, hrow, hsize, hread⟩ :=
    t.exists_line (Nat.le_trans (t.line_le_area hy) t.area_le)
  refine ⟨row, hrow, hsize, fun x hx => ?_⟩
  have hplace : y * t.width + x < t.area := t.index_lt_area hx hy
  obtain ⟨s, hs⟩ := t.exists_stored hplace
  refine ⟨s, (hread x hx).trans hs, (t.getElem?_samples hplace).trans hs, ?_⟩
  rw [heightAt?, hs, Option.map_some]

/-- A place below the tile is behind its samples. -/
theorem area_le_index (t : Tile) {x y : Nat} (hy : t.height ≤ y) : t.area ≤ y * t.width + x := by
  calc t.area = t.height * t.width := Nat.mul_comm ..
    _ ≤ y * t.width := Nat.mul_le_mul_right _ hy
    _ ≤ y * t.width + x := Nat.le_add_right ..

/-! ## Writing -/

/-- What a caller does with samples that are lent to it. It may look at all of them and replace any
    of them, in any order and by any others, also only some of them before it fails; but it can
    neither add one nor take one away. -/
structure Use where
  run : Array Sample → Array Sample
  size_run : ∀ samples, (run samples).size = samples.size

namespace Use

/-- Replaces one sample. -/
def one (i : Nat) (s : Sample) : Use where
  run samples := samples.setIfInBounds i s
  size_run _ := Array.size_setIfInBounds

/-- Goes through all samples. -/
def each (f : Nat → Sample → Sample) : Use where
  run samples := samples.mapIdx f
  size_run _ := Array.size_mapIdx

end Use

/-- What is stored behind the samples of a tile. -/
def rest (t : Tile) : Array Sample := t.store.toArray.extract t.area capacity

theorem samples_append_rest (t : Tile) : t.samples ++ t.rest = t.store.toArray := by
  have hfits : t.area ≤ capacity := t.area_le
  rw [samples, rest, Array.extract_append_extract, Nat.zero_min, Nat.max_eq_right hfits,
    Array.extract_eq_self_of_le (Nat.le_of_eq t.store.size_toArray)]

/-- Lends the samples of a tile to a caller, and takes back what the caller leaves. -/
def lend (t : Tile) (use : Use) : Tile :=
  { t with store := ⟨use.run t.samples ++ t.rest, by
      rw [Array.size_append, use.size_run, ← Array.size_append, samples_append_rest]
      exact t.store.size_toArray⟩ }

/-- Lends the samples of a tile several times. -/
def lendAll (t : Tile) (uses : List Use) : Tile := uses.foldl lend t

/-- A store that has changed at its front only is one that was lent. -/
theorem eq_lend_of_store (t : Tile) {use : Use} {store : Vector Sample capacity}
    (hstore : store.toArray = use.run t.samples ++ t.rest) :
    { t with store := store } = t.lend use := by
  obtain ⟨numbers, hsize⟩ := store
  subst hstore
  rfl

/-- The samples are then what the caller has left. -/
@[simp]
theorem samples_lend (t : Tile) (use : Use) : (t.lend use).samples = use.run t.samples := by
  have hsize : (use.run t.samples).size = t.area := by rw [use.size_run, size_samples]
  show (use.run t.samples ++ t.rest).extract 0 t.area = use.run t.samples
  rw [← hsize, Array.extract_append_left, Array.extract_size]

/-- And what lies behind them was not lent. -/
@[simp]
theorem rest_lend (t : Tile) (use : Use) : (t.lend use).rest = t.rest := by
  have hsize : (use.run t.samples).size = t.area := by rw [use.size_run, size_samples]
  have hrest : capacity = t.area + t.rest.size := by
    rw [← size_samples, ← Array.size_append, samples_append_rest, t.store.size_toArray]
  show (use.run t.samples ++ t.rest).extract t.area capacity = t.rest
  rw [hrest, ← hsize, Array.extract_append_right, Array.extract_size]

/-- A pass over the samples is a use of them. -/
theorem mapSamples_eq_lend (t : Tile) (f : Nat → Sample → Sample) :
    t.mapSamples f = t.lend (.each f) := by
  refine t.eq_lend_of_store ?_
  rw [Vector.toArray_mapIdx, ← samples_append_rest, Array.mapIdx_append, size_samples]
  congr 1
  · refine Array.mapIdx_eq_mapIdx_iff.2 fun i hi => if_pos ?_
    rwa [size_samples] at hi
  · -- The numbers of the rest start at the area, where the pass ends.
    refine Array.mapIdx_eq_iff.2 fun i => ?_
    have hbehind : ¬ i + t.area < t.area := by omega
    simp only [if_neg hbehind, Option.map_id']

/-- So is the replacement of a sample; where there is none, it is refused. -/
theorem set?_eq_lend (t : Tile) (i : Nat) (s : Sample) :
    t.set? i s = if i < t.area then some (t.lend (.one i s)) else none := by
  unfold set?
  split
  · next hi =>
    refine congrArg some (t.eq_lend_of_store ?_)
    have hfront : i < t.samples.size := by rwa [size_samples]
    rw [Vector.toArray_setIfInBounds, ← samples_append_rest,
      Array.setIfInBounds_append_left hfront]
    rfl
  · rfl

/-- The fields of a tile but its store stay as they are. -/
theorem exists_lendAll (t : Tile) (uses : List Use) :
    ∃ store, t.lendAll uses = { t with store := store } := by
  induction uses generalizing t with
  | nil => exact ⟨t.store, rfl⟩
  | cons use rest ih => exact ih (t.lend use)

/-! ## Behind the samples -/

/-- Whether a tile has these samples, and zeros behind them. -/
structure Holds (t : Tile) (front : Array Sample) : Prop where
  samples : t.samples = front
  rest : t.rest = Array.replicate (capacity - t.area) Sample.zero

theorem holds_blank {width height : Nat} (fits : width * height ≤ capacity)
    (offsetX offsetY : Nat) :
    (blank offsetX offsetY width height fits).Holds
      (Array.replicate (width * height) Sample.zero) := by
  constructor
  · simp [Tile.samples, blank, area, Nat.min_eq_left fits]
  · simp [Tile.rest, blank, area]

namespace Holds

variable {t : Tile} {front : Array Sample}

/-- **A use changes the samples and nothing behind them.** -/
theorem lend (ht : t.Holds front) (use : Use) : (t.lend use).Holds (use.run front) := by
  constructor
  · rw [samples_lend, ht.samples]
  · rw [rest_lend, ht.rest]
    rfl

theorem lendAll (ht : t.Holds front) (uses : List Use) :
    (t.lendAll uses).Holds (uses.foldl (fun front use => use.run front) front) := by
  induction uses generalizing t front with
  | nil => exact ht
  | cons use rest ih => exact ih (ht.lend use)

/-- Every place behind the samples is zero. -/
theorem stored?_of_le (ht : t.Holds front) {i : Nat} (hi : t.area ≤ i) (hend : i < capacity) :
    t.stored? i = some Sample.zero := by
  have hfront : t.samples.size ≤ i := by rwa [size_samples]
  have hplace : i - t.area < capacity - t.area := by omega
  calc t.stored? i = (t.samples ++ t.rest)[i]? := by
        rw [samples_append_rest, Vector.getElem?_toArray, stored?]
    _ = t.rest[i - t.area]? := by rw [Array.getElem?_append_right hfront, size_samples]
    _ = some Sample.zero := by rw [ht.rest, Array.getElem?_replicate, if_pos hplace]

/-- A row below the tile is zero, as far as the store reaches. -/
theorem line?_of_le (ht : t.Holds front) {y : Nat} (hy : t.height ≤ y)
    (hend : (y + 1) * t.width ≤ capacity) :
    t.line? y = some (Array.replicate t.width Sample.zero) := by
  obtain ⟨row, hrow, hsize, hread⟩ := t.exists_line hend
  rw [hrow]
  refine congrArg some (Array.ext_getElem? fun x => ?_)
  rw [Array.getElem?_replicate]
  split
  · next hx =>
    rw [hread x hx]
    refine ht.stored?_of_le (t.area_le_index hy) ?_
    rw [Nat.succ_mul] at hend
    omega
  · exact Array.getElem?_eq_none (by omega)

/-- So is a height below the tile. -/
theorem heightAt?_of_le (ht : t.Holds front) {x y : Nat} (hy : t.height ≤ y)
    (hend : y * t.width + x < capacity) : t.heightAt? x y = some Binary32.zero := by
  rw [heightAt?, ht.stored?_of_le (t.area_le_index hy) hend]
  rfl

end Holds

/-- **The views of a tile agree, and behind its samples it stays blank.** A tile begins blank, and
    its samples are lent any number of times to callers that do with them what they like; place and
    size stay. The samples are then what the callers have made of zeros, one after the other. They
    are the rows of the tile in order, and at every column and row of the tile its row, its samples
    and its heights find the same sample, without leaving row, samples or store. Behind the samples
    the store is zero up to its end, and so are the rows and heights that are read below the tile.
    The tile's own ways of writing are uses of this kind; one of a sample that is not there is
    refused. -/
theorem views_agree {width height : Nat} (fits : width * height ≤ capacity)
    (offsetX offsetY : Nat) (uses : List Use) :
    let t := (blank offsetX offsetY width height fits).lendAll uses
    (t.offsetX = offsetX ∧ t.offsetY = offsetY ∧ t.width = width ∧ t.height = height) ∧
    (t.samples = uses.foldl (fun samples use => use.run samples)
        (Array.replicate (width * height) Sample.zero) ∧
      t.samples.size = width * height) ∧
    (∃ rows, (List.range height).mapM t.line? = some rows ∧
      t.samples.toList = rows.flatMap Array.toList) ∧
    (∀ y < height, ∃ row, t.line? y = some row ∧ row.size = width ∧ ∀ x < width, ∃ s,
      row[x]? = some s ∧ t.samples[y * width + x]? = some s ∧ t.heightAt? x y = some s.height) ∧
    (∀ i, width * height ≤ i → i < capacity → t.stored? i = some Sample.zero) ∧
    (∀ y, height ≤ y → (y + 1) * width ≤ capacity →
      t.line? y = some (Array.replicate width Sample.zero)) ∧
    (∀ x y, height ≤ y → y * width + x < capacity → t.heightAt? x y = some Binary32.zero) ∧
    (∀ f, t.mapSamples f = t.lend (.each f)) ∧
    ∀ i s, t.set? i s = if i < width * height then some (t.lend (.one i s)) else none := by
  intro t
  have hholds : t.Holds _ := (holds_blank fits offsetX offsetY).lendAll uses
  obtain ⟨store, hstore⟩ := (blank offsetX offsetY width height fits).exists_lendAll uses
  have hwidth : t.width = width := congrArg Tile.width hstore
  have hheight : t.height = height := congrArg Tile.height hstore
  have harea : t.area = width * height := congrArg Tile.area hstore
  refine ⟨⟨congrArg Tile.offsetX hstore, congrArg Tile.offsetY hstore, hwidth, hheight⟩,
    ⟨hholds.samples, t.size_samples.trans harea⟩, ?_, ?_, ?_, ?_, ?_, t.mapSamples_eq_lend, ?_⟩
  · rw [← hheight]
    exact t.samples_eq_lines
  · rw [← hheight, ← hwidth]
    exact fun y => t.exists_sample
  · rw [← harea]
    exact fun i => hholds.stored?_of_le
  · rw [← hheight, ← hwidth]
    exact fun y => hholds.line?_of_le
  · rw [← hheight, ← hwidth]
    exact fun x y => hholds.heightAt?_of_le
  · rw [← harea]
    exact t.set?_eq_lend

/-- Two rows of three samples, of which the second is set to ones and its middle to a half. Below
    them the store goes on with rows of zeros. -/
theorem views_agree_two_rows :
    3 * 2 ≤ capacity ∧
    let ones : Use := .each fun i s => if i < 3 then s else Sample.ofHeight Binary32.one
    let t := (blank 0 0 3 2 (by decide)).lendAll [ones, .one 4 (Sample.ofHeight Binary32.half)]
    t.heightAt? 2 0 = some Binary32.zero ∧ t.heightAt? 0 1 = some Binary32.one ∧
      t.heightAt? 1 1 = some Binary32.half ∧
      t.line? 2 = some (Array.replicate 3 Sample.zero) ∧
      t.heightAt? 1 3 = some Binary32.zero := by
  refine ⟨by decide, ?_⟩
  intro ones t
  have hfits : 3 * 2 ≤ capacity := by decide
  obtain ⟨-, ⟨hsamples, -⟩, -, hread, -, hline, hheight, -⟩ := views_agree hfits 0 0
    [ones, .one 4 (Sample.ofHeight Binary32.half)]
  have hat : ∀ x y s, x < 3 → y < 2 → t.samples[y * 3 + x]? = some s →
      t.heightAt? x y = some s.height := by
    intro x y s hx hy hs
    obtain ⟨row, -, -, hrow⟩ := hread y hy
    obtain ⟨s', -, hs', hfound⟩ := hrow x hx
    obtain rfl : s' = s := Option.some.inj (hs'.symm.trans hs)
    exact hfound
  refine ⟨hat 2 0 Sample.zero (by decide) (by decide) ?_,
    hat 0 1 (Sample.ofHeight Binary32.one) (by decide) (by decide) ?_,
    hat 1 1 (Sample.ofHeight Binary32.half) (by decide) (by decide) ?_,
    hline 2 (by decide) (by decide), hheight 1 3 (by decide) (by decide)⟩
  · rw [hsamples]
    rfl
  · rw [hsamples]
    rfl
  · rw [hsamples]
    rfl

/-! ## Tiles of a renderer -/

/-- A tile that is rendered has zeros behind its samples, if it was blank. -/
theorem holds_render_nextTile (field : Field Float32) (sampling : Sampling) (size : Size)
    (f : Frame) :
    let t := TileRenderer.render field sampling size f.nextTile
    t.Holds t.samples := by
  intro t
  have hblank : f.nextTile.Holds _ := holds_blank _ f.nextX f.nextY
  have hlent : t = f.nextTile.lend _ := mapSamples_eq_lend ..
  rw [hlent]
  exact ⟨rfl, (hblank.lend _).rest⟩

end Tile

namespace Session

variable {σ : Type} {x : Session σ}

/-- A request delivers such a tile, if it delivers any. -/
theorem holds_serve (hx : ∀ t ∈ x.delivered, t.Holds t.samples) (q : Request σ) :
    ∀ t ∈ (x.serve q).delivered, t.Holds t.samples := by
  rcases x.delivered_serve q with hnone | ⟨f, field, -, hone⟩
  · rwa [hnone]
  · intro t ht
    rw [hone, List.mem_append, List.mem_singleton] at ht
    rcases ht with ht | rfl
    · exact hx t ht
    · exact Tile.holds_render_nextTile ..

/-- **Behind the samples of every tile that is delivered there are zeros**, whatever was requested
    and rendered before. -/
theorem holds_delivered (r : TileRenderer σ) (s : σ) (requests : List (Request σ)) :
    ∀ t ∈ ((start r s).follow requests).delivered, t.Holds t.samples := by
  have hstart : ∀ t ∈ (start r s).delivered, t.Holds t.samples :=
    fun t ht => absurd ht List.not_mem_nil
  exact follow_invariant (Q := fun _ => True) (P := fun x => ∀ t ∈ x.delivered, t.Holds t.samples)
    (fun x q hx _ => holds_serve hx q) hstart fun _ _ => trivial

end Session

end Relief
