import Relief.Proofs.Overlays
import Relief.Proofs.Refusals

set_option autoImplicit false

/-! # Placements: sizes and places that need more than 32 bits

Rasters and tiles have natural numbers for their sides and offsets, and images have 32 bits. What
does not fit is neither refused nor dropped: it is taken modulo `2 ^ 32`. A mosaic and the two files
of a row writer have the wrapped size (`Size.wrapped`), and a tile is seen at its wrapped place
(`Tile.wrapped`), from where it reaches as far as the image does. It cannot wrap around once more on
the way, because an image ends before its coordinates do (`Mosaic.Straight`). So a tile beyond the
image may be drawn inside of it. With sides and offsets below `2 ^ 32` all is where it belongs. -/

namespace Relief

/-! ## Wrapping -/

theorem Size.wrapped_lt (size : Size) :
    size.wrapped.width < UInt32.size ∧ size.wrapped.height < UInt32.size :=
  ⟨Nat.mod_lt _ (by decide), Nat.mod_lt _ (by decide)⟩

theorem Size.wrapped_eq_iff {size : Size} :
    size.wrapped = size ↔ size.width < UInt32.size ∧ size.height < UInt32.size := by
  constructor
  · intro h
    rw [← h]
    exact size.wrapped_lt
  · rintro ⟨hwidth, hheight⟩
    exact Size.wrapped_of_lt hwidth hheight

/-- A tile at the place where an image sees it. -/
def Tile.wrapped (t : Tile) : Tile :=
  { t with offsetX := Mosaic.wrap t.offsetX, offsetY := Mosaic.wrap t.offsetY }

theorem Tile.wrapped_of_lt {t : Tile} (hx : t.offsetX < UInt32.size)
    (hy : t.offsetY < UInt32.size) : t.wrapped = t := by
  rw [Tile.wrapped, Mosaic.wrap_of_lt hx, Mosaic.wrap_of_lt hy]

namespace Mosaic

variable {size : Size} {range : HeightRange} {m : Mosaic} {t : Tile} {x y py : Nat}

theorem wrap_lt (n : Nat) : wrap n < UInt32.size := Nat.mod_lt _ (by decide)

theorem wrap_wrap_add (a b : Nat) : wrap (wrap a + b) = wrap (a + b) := Nat.mod_add_mod _ _ _

theorem rowWrites_wrap (width offsetX x : Nat) (samples : List Sample) :
    rowWrites width range (wrap offsetX) py x samples
      = rowWrites width range offsetX py x samples := by
  induction samples generalizing x with
  | nil => rfl
  | cons sample rest ih => simp only [rowWrites, wrap_wrap_add, ih]

theorem rowsWrites_wrapped (rows : Nat) :
    rowsWrites size range t.wrapped rows y = rowsWrites size range t rows y := by
  induction rows generalizing y with
  | zero => rfl
  | succ rows ih =>
      have hline : t.wrapped.line? y = t.line? y := rfl
      have hx : t.wrapped.offsetX = wrap t.offsetX := rfl
      have hy : t.wrapped.offsetY = wrap t.offsetY := rfl
      simp only [rowsWrites, hline, hx, hy, wrap_wrap_add, rowWrites_wrap, ih]

/-- A mosaic sees the wrapped place of a tile and nothing else of its place. -/
theorem add_wrapped (m : Mosaic) (t : Tile) : m.add t.wrapped = m.add t := by
  have hwrites : writes m.size m.range t.wrapped = writes m.size m.range t := rowsWrites_wrapped _
  have htaken := m.foldl_add [t]
  have hwrapped := m.foldl_add [t.wrapped]
  rw [List.flatMap_singleton] at htaken hwrapped
  rw [hwrites] at hwrapped
  exact hwrapped.trans htaken.symm

/-- **A tile replaces the pixels of an image that it covers at its wrapped place**, and no other. -/
theorem pixel?_add_wrapped (hm : m.Filled) (hwidth : m.size.width < UInt32.size)
    (hheight : m.size.height < UInt32.size) (hx : x < m.size.width) (hy : y < m.size.height) :
    (m.add t).pixel? x y
      = if t.wrapped.rect.Contains x y then t.wrapped.sampleAt? m.range x y else m.pixel? x y := by
  rw [← add_wrapped]
  exact pixel?_add_of_straight hm (.inr ⟨wrap_lt _, hwidth⟩) (.inr ⟨wrap_lt _, hheight⟩) hx hy

/-- There is a pixel at every place of an image and at no other. -/
theorem isSome_pixel?_iff (hm : m.Filled) :
    (m.pixel? x y).isSome = true ↔ x < m.size.width ∧ y < m.size.height := by
  by_cases hinside : x < m.size.width ∧ y < m.size.height
  · have hplace : y * m.size.width + x < m.pixels.size := hm ▸ rowMajor_lt hinside.1 hinside.2
    rw [pixel?, if_pos hinside, Array.getElem?_eq_getElem hplace]
    exact iff_of_true rfl hinside
  · rw [pixel?, if_neg hinside]
    exact iff_of_false Bool.false_ne_true hinside

/-- What becomes of a tile in a mosaic that was made for a size and a range. -/
structure Places (size : Size) (range : HeightRange) (m : Mosaic) (t : Tile) : Prop where
  size_eq : m.size = size.wrapped
  isSome_pixel?_iff : ∀ x y, (m.pixel? x y).isSome = true ↔ x < m.size.width ∧ y < m.size.height
  pixel?_add : ∀ x y, x < m.size.width → y < m.size.height → (m.add t).pixel? x y
    = if t.wrapped.rect.Contains x y then t.wrapped.sampleAt? range x y else m.pixel? x y
  /-- A tile whose offsets fit changes no pixel that it does not cover. -/
  covers_of_ne : t.offsetX < UInt32.size → t.offsetY < UInt32.size →
    ∀ x y, (m.add t).pixel? x y ≠ m.pixel? x y → t.rect.Contains x y

theorem places (size : Size) (range : HeightRange) (tiles : List Tile) (t : Tile) :
    Places size range (tiles.foldl add (new size range)) t := by
  have hfilled := (filled_new size range).foldl_add tiles
  have hsize : (tiles.foldl add (new size range)).size = size.wrapped := by
    rw [Mosaic.foldl_add]
    rfl
  have hrange : (tiles.foldl add (new size range)).range = range := by
    rw [Mosaic.foldl_add]
    rfl
  generalize tiles.foldl add (new size range) = m at *
  have hadd : ∀ x y, x < m.size.width → y < m.size.height → (m.add t).pixel? x y
      = if t.wrapped.rect.Contains x y then t.wrapped.sampleAt? range x y else m.pixel? x y := by
    intro x y hx hy
    rw [← hrange]
    exact pixel?_add_wrapped hfilled (hsize ▸ size.wrapped_lt.1) (hsize ▸ size.wrapped_lt.2) hx hy
  refine ⟨hsize, fun x y => Mosaic.isSome_pixel?_iff hfilled, hadd, fun hx hy x y hne => ?_⟩
  by_contra houtside
  refine hne ?_
  by_cases hinside : x < m.size.width ∧ y < m.size.height
  · rw [hadd x y hinside.1 hinside.2, Tile.wrapped_of_lt hx hy, if_neg houtside]
  · have hsame : (m.add t).size = m.size := rfl
    rw [pixel?, pixel?, hsame, if_neg hinside, if_neg hinside]

end Mosaic

/-! ## Row writers -/

/-- What is left in a file that an image of a size was begun in, after a number of pixels. -/
structure FileContent.Leaves (size : Size) (pixels : Nat) (content : FileContent) : Prop where
  image : size.wrapped.area ≤ pixels →
    ∃ image, content = .image image ∧ image.size = size.wrapped
  partialImage : pixels < size.wrapped.area → content = .partialImage

theorem ImageStream.leaves_feed {stream : ImageStream} {size : Size} {width : Nat}
    {rows : List (Array UInt8)} (hsize : stream.size = size.wrapped)
    (hpixel : 0 < stream.pixelBytes) (hblank : stream.bytes = #[])
    (hrows : ∀ row ∈ rows, row.size = width * stream.pixelBytes) (pixels : Array UInt8 → Pixels) :
    FileContent.Leaves size (rows.length * width)
      ((ByteStream.feed rows stream).content pixels) := by
  have hbytes := size_bytes_feed hrows hblank
  have hfed : (ByteStream.feed rows stream).size = size.wrapped ∧
      (ByteStream.feed rows stream).pixelBytes = stream.pixelBytes := by
    rw [feed_eq]
    exact ⟨hsize, rfl⟩
  generalize ByteStream.feed rows stream = fed at *
  have hcomplete : fed.isComplete = true ↔ size.wrapped.area ≤ rows.length * width := by
    rw [isComplete, decide_eq_true_eq, frameBytes, hbytes, hfed.1, hfed.2, ← Nat.mul_assoc]
    exact Nat.mul_le_mul_right_iff hpixel
  constructor
  · intro hle
    rw [content, if_pos (hcomplete.2 hle), hfed.1]
    exact ⟨_, rfl, rfl⟩
  · intro hlt
    rw [content, if_neg fun h => absurd (hcomplete.1 h) (Nat.not_le.2 hlt)]

open RowWriter in
/-- A stream that was handed a row of bytes for each row that a writer took. -/
theorem ImageStream.leaves_feed_taken {stream : ImageStream} {size : Size} {width : Nat}
    (hsize : stream.size = size.wrapped) (hpixel : 0 < stream.pixelBytes)
    (hblank : stream.bytes = #[]) {row : HeightRange × Array Float32 → Array UInt8}
    (hrow : ∀ r, (row r).size = width * stream.pixelBytes) (length : Nat) (calls : List Call)
    (pixels : Array UInt8 → Pixels) :
    FileContent.Leaves size (((rows calls).takeWhile (·.size == length)).length * width)
      ((ByteStream.feed ((taken length .unit calls).map row) stream).content pixels) := by
  have hrows : ∀ bytes ∈ (taken length .unit calls).map row,
      bytes.size = width * stream.pixelBytes := List.forall_mem_map.2 fun r _ => hrow r
  have hleaves := leaves_feed hsize hpixel hblank hrows pixels
  rwa [List.length_map, length_taken] at hleaves

open RowWriter in
/-- **Both files of a row writer hold images of the wrapped size**, whatever it is asked to do: an
    image is complete as soon as there are enough pixels for the wrapped size in the rows that were
    taken, which have the length that was asked for. -/
theorem MapWriter.read?_follow {fs fs' : Files} {size : Size} {heightPath colorPath : String}
    {w : MapWriter} (h : create fs size heightPath colorPath = (.ok w, fs')) (calls : List Call)
    {path : String} (hpath : path = heightPath ∨ path = colorPath) :
    ∃ content, ((w.follow calls).close fs').read? path = .ok content ∧
      content.Leaves size
        (((rows calls).takeWhile (·.size == size.width * 4)).length * size.width) := by
  obtain ⟨heightPlace, colorPlace, hheight, hcolor, rfl, rfl, -, -⟩ := create_eq_ok h
  let heights : ImageStream := ⟨heightPlace, size.wrapped, 2, #[]⟩
  let colors : ImageStream := ⟨colorPlace, size.wrapped, 3, #[]⟩
  have hready : (start size heights colors).Ready :=
    ⟨Array.size_replicate, Array.size_replicate, rfl⟩
  obtain ⟨htook, -⟩ := follow_taken hready (heights.accepts _ _) (colors.accepts _ _)
    (Nat.le_refl (taken (size.width * 4) HeightRange.unit calls).length)
  have hemptied := ((Files.SameDirectories.refl fs).put (Files.rooted_of_create? hheight)
    .partialImage).put (Files.rooted_of_create? hcolor) .partialImage
  -- Rows add bytes to the streams, which keep their places and sizes.
  have hplaces : ((start size heights colors).follow calls).heights.place = heightPlace ∧
      ((start size heights colors).follow calls).colors.place = colorPlace := by
    rw [htook.heights, htook.colors, ImageStream.feed_eq, ImageStream.feed_eq]
    exact ⟨rfl, rfl⟩
  have hheights := heights.leaves_feed_taken rfl Nat.two_pos rfl
    (fun row => size_heightBytes row.1 size.width (Pixel.at row.2)) (size.width * 4) calls
    .ofGrayBytes
  have hcolors := colors.leaves_feed_taken rfl (Nat.succ_pos 2) rfl
    (fun row => size_colorBytes size.width (Pixel.at row.2)) (size.width * 4) calls .rgb8
  obtain ⟨hread, hread'⟩ := MapWriter.read?_close hemptied (hplaces.1 ▸ hheight)
    (hplaces.2 ▸ hcolor)
  rw [htook.heights, htook.colors] at hread
  rw [htook.colors] at hread'
  obtain rfl | rfl := hpath
  · refine ⟨_, hread, ?_⟩
    split
    · exact hcolors
    · exact hheights
  · exact ⟨_, hread', hcolors⟩

/-! ## Main result -/

/-- **Sizes and places are taken modulo `2 ^ 32`.** An image has the size that was asked for exactly
    when both sides are below `2 ^ 32`, and the wrapped size otherwise: a mosaic at once, and the
    files of a row writer when they are complete, unless the writer refuses to start. A mosaic sees
    a tile at its wrapped place, so that a tile with offsets below `2 ^ 32` changes no pixel that it
    does not cover. -/
theorem sizes_and_places_wrap (size : Size) :
    (size.wrapped = size ↔ size.width < UInt32.size ∧ size.height < UInt32.size) ∧
    (∀ (range : HeightRange) (tiles : List Tile) (t : Tile),
      Mosaic.Places size range (tiles.foldl Mosaic.add (Mosaic.new size range)) t) ∧
    ∀ (fs fs' : Files) (heightPath colorPath : String) (w : MapWriter),
      MapWriter.create fs size heightPath colorPath = (.ok w, fs') →
      ∀ (calls : List RowWriter.Call) (path : String), path = heightPath ∨ path = colorPath →
      ∃ content, ((w.follow calls).close fs').read? path = .ok content ∧
        content.Leaves size (((RowWriter.rows calls).takeWhile
          (·.size == size.width * 4)).length * size.width) :=
  ⟨Size.wrapped_eq_iff, fun range tiles t => Mosaic.places size range tiles t,
    fun _ _ _ _ _ h calls _ hpath => MapWriter.read?_follow h calls hpath⟩

/-- A writer for one pixel that was handed one row, and a tile in the upper left corner. -/
theorem sizes_and_places_wrap_one_pixel :
    let size : Size := ⟨1, 1⟩
    let t := Tile.blank 0 0 1 1 (by decide)
    (size.width < UInt32.size ∧ size.height < UInt32.size) ∧
    (t.offsetX < UInt32.size ∧ t.offsetY < UInt32.size) ∧
    (∀ x y, ((Mosaic.new size .unit).add t).pixel? x y ≠ (Mosaic.new size .unit).pixel? x y →
      t.rect.Contains x y) ∧
    ∃ w fs', MapWriter.create Files.empty size "height.png" "color.png" = (.ok w, fs') ∧
      ∃ image, ((w.follow [.row (Array.replicate 4 Binary32.zero)]).close fs').read? "color.png"
        = .ok (.image image) ∧ image.size = size := by
  intro size t
  obtain ⟨-, hmosaic, hwriter⟩ := sizes_and_places_wrap size
  obtain ⟨w, fs', hcreate⟩ : ∃ w fs', MapWriter.create Files.empty size "height.png" "color.png"
      = (.ok w, fs') := ⟨_, _, rfl⟩
  obtain ⟨content, hread, hleaves⟩ := hwriter Files.empty fs' "height.png" "color.png" w hcreate
    [.row (Array.replicate 4 Binary32.zero)] "color.png" (.inr rfl)
  obtain ⟨image, rfl, himage⟩ := hleaves.image (by decide)
  exact ⟨by decide, by decide, (hmosaic .unit [] t).covers_of_ne (by decide) (by decide), w, fs',
    hcreate, image, hread, himage⟩

/-- A white tile that begins `2 ^ 32` pixels to the right of a mosaic. -/
def Tile.farRight : Tile :=
  (Tile.blank UInt32.size 0 1 1 (by decide)).withHeights #[Binary32.one]

/-- It is drawn into the first pixel, which it does not cover. -/
theorem Mosaic.shows_tile_outside :
    ((Mosaic.new ⟨1, 1⟩ .unit).add Tile.farRight).pixel? 0 0
        ≠ (Mosaic.new ⟨1, 1⟩ .unit).pixel? 0 0 ∧
      ¬ Tile.farRight.rect.Contains 0 0 := by
  have hblack : (Mosaic.new ⟨1, 1⟩ .unit).pixel? 0 0 = some 0 :=
    pixel?_new rfl .unit Nat.one_pos Nat.one_pos
  have hcovers : Tile.farRight.wrapped.rect.Contains 0 0 := by decide
  have hwhite : Tile.farRight.wrapped.sampleAt? .unit 0 0 = some 65535 := by
    have hstored : (Tile.blank UInt32.size 0 1 1 (by decide)).stored? 0 = some Sample.zero :=
      Vector.getElem?_replicate.trans (if_pos (by decide))
    have hheight : Tile.farRight.heightAt? 0 0 = some Binary32.one :=
      Tile.heightAt?_mapSamples _ _ Nat.one_pos Nat.one_pos hstored
    show (Tile.farRight.heightAt? 0 0).map HeightRange.unit.quantize = some 65535
    rw [hheight]
    decide +kernel
  have hadd := pixel?_add_wrapped (t := Tile.farRight) (filled_new ⟨1, 1⟩ .unit)
    (show 1 < UInt32.size by decide) (show 1 < UInt32.size by decide) Nat.one_pos Nat.one_pos
  refine ⟨?_, by decide⟩
  rw [hadd, if_pos hcovers, hblack]
  intro hsame
  exact absurd (hwhite.symm.trans hsame) (by decide)

end Relief
