import Relief.Command.Preview
import Relief.Proofs.Images
import Relief.Proofs.Jobs
import Relief.Proofs.Mosaics
import Relief.Proofs.Partition

set_option autoImplicit false

/-! # Previews: the mosaic of a project is the height map of its export

A preview renders the heights of a project tile by tile and puts the tiles together to a mosaic; an
export renders them row by row and writes bytes. Both come down to one sample for each pixel of the
raster, the one of the height at its centre: the samples that the tiles of a frame write are these
(`TileRenderer.mem_firstWrites`), each once (`TileRenderer.countP_firstWrites`), and so are the
samples that the bytes of the export are read as (`Project.exists_exportMaps`). The images are
therefore the same (`preview_eq_export`). -/

namespace Relief

/-- Where a pixel of a raster is sampled. -/
def Sampling.coordsOf (sampling : Sampling) (size : Size) (x y : Nat) : Coords :=
  match sampling with
  | .perTile => Coords.ofPixel (x % Tile.edge) (y % Tile.edge) Tile.edge Tile.edge
  | .raster => Coords.ofPixel x y size.width size.height

namespace TileRenderer

variable {σ : Type} {r : TileRenderer σ} {field : Field Float32} {range : HeightRange}
  {i k px py : Nat}

/-! ## The samples of a frame -/

/-- The samples that the first `k` tiles of a frame write into a mosaic of its size. -/
def firstWrites (r : TileRenderer σ) (field : Field Float32) (range : HeightRange) (k : Nat) :
    List Mosaic.Write :=
  (r.firstTiles field k).flatMap (Mosaic.writes r.size range)

theorem firstWrites_succ (r : TileRenderer σ) (field : Field Float32) (range : HeightRange)
    (k : Nat) : r.firstWrites field range (k + 1)
      = r.firstWrites field range k ++ Mosaic.writes r.size range (r.tileAt field k) := by
  rw [firstWrites, firstTiles_succ, List.flatMap_append, List.flatMap_singleton]
  rfl

/-- A tile of a frame shows the heights at its pixels, wherever these are sampled. -/
theorem heightAt?_tileAt {x y : Nat} (hx : x < (r.tileAt field i).width)
    (hy : y < (r.tileAt field i).height) :
    (r.tileAt field i).heightAt? x y
      = some (field (r.sampling.coordsOf r.size ((r.tileAt field i).offsetX + x)
          ((r.tileAt field i).offsetY + y))) := by
  refine (heightAt?_render field r.sampling r.size (Frame.after r.size i).nextTile hx hy).trans ?_
  cases r.sampling with
  | raster => rfl
  | perTile =>
      -- A tile begins at a multiple of its edge, so that what is left of a pixel is its place.
      have hlocal {n : Nat} (hn : n < Tile.edge) (c : Nat) : (c * Tile.edge + n) % Tile.edge = n := by
        rw [Nat.mul_add_mod', Nat.mod_eq_of_lt hn]
      have hx' := hlocal (Nat.lt_of_lt_of_le hx (Frame.cell_le_edge r.size i).1)
      have hy' := hlocal (Nat.lt_of_lt_of_le hy (Frame.cell_le_edge r.size i).2)
      rw [Sampling.coordsOf]
      exact congrArg₂ (fun x y => some (field (Coords.ofPixel x y Tile.edge Tile.edge)))
        (hx' _).symm (hy' _).symm

section Fitting

variable (hwidth : r.size.width < UInt32.size) (hheight : r.size.height < UInt32.size)
  (hk : k ≤ Frame.cellCount r.size)

include hwidth hheight hk

/-- The coordinates of a tile do not wrap around if those of the raster do not. -/
theorem tileAt_fits (field : Field Float32) (hi : i < k) :
    (r.tileAt field i).offsetX + (r.tileAt field i).width ≤ UInt32.size ∧
      (r.tileAt field i).offsetY + (r.tileAt field i).height ≤ UInt32.size := by
  obtain ⟨hright, hbottom⟩ := tileAt_inside field (Nat.lt_of_lt_of_le hi hk)
  exact ⟨Nat.le_trans hright (Nat.le_of_lt hwidth), Nat.le_trans hbottom (Nat.le_of_lt hheight)⟩

/-- What is written at a pixel is the sample of the height there. -/
theorem mem_firstWrites {w : Mosaic.Write} (hw : w ∈ r.firstWrites field range k) :
    w.x < r.size.width ∧ w.y < r.size.height ∧
      w.sample = range.quantize (field (r.sampling.coordsOf r.size w.x w.y)) := by
  obtain ⟨t, ht, hw⟩ := List.mem_flatMap.1 hw
  obtain ⟨i, hi, rfl⟩ := List.mem_map.1 ht
  have hi := List.mem_range.1 hi
  obtain ⟨hx, hy⟩ := tileAt_fits hwidth hheight hk field hi
  obtain ⟨hright, hbottom⟩ := tileAt_inside field (Nat.lt_of_lt_of_le hi hk)
  obtain ⟨x, y, h, hcolumn, hrow, hheightAt, -, rfl⟩ := Mosaic.mem_writes (.inl hx) (.inl hy) hw
  rw [heightAt?_tileAt hcolumn hrow] at hheightAt
  refine ⟨Nat.lt_of_lt_of_le (Nat.add_lt_add_left hcolumn _) hright,
    Nat.lt_of_lt_of_le (Nat.add_lt_add_left hrow _) hbottom, ?_⟩
  rw [Option.some.inj hheightAt]

/-- A pixel is written once, with the tile that covers it. -/
theorem countP_firstWrites (field : Field Float32) (range : HeightRange) (hpx : px < r.size.width)
    (hpy : py < r.size.height) :
    (r.firstWrites field range k).countP (·.isAt px py)
      = if Frame.cellOf r.size px py < k then 1 else 0 := by
  induction k with
  | zero => rfl
  | succ k ih =>
      obtain ⟨hx, hy⟩ := tileAt_fits hwidth hheight hk field (Nat.lt_succ_self k)
      rw [firstWrites_succ, List.countP_append, ih (Nat.le_of_succ_le hk),
        Mosaic.countP_writes (.inl hx) (.inl hy) hpx hpy, rect_tileAt]
      simp only [Frame.cell_contains_iff hpx hpy]
      split <;> split <;> split <;> omega

end Fitting

/-- The mosaic of the first tiles of a frame has the samples of their pixels, and leaves the others
    as they were. -/
theorem getElem?_foldl_firstWrites_le (hwidth : r.size.width < UInt32.size)
    (hheight : r.size.height < UInt32.size) (hk : k ≤ Frame.cellCount r.size)
    {pixels : Array UInt16} (hpixels : pixels.size = r.size.area) (hpx : px < r.size.width)
    (hpy : py < r.size.height) :
    ((r.firstWrites field range k).foldl (Mosaic.Write.apply r.size)
        pixels)[py * r.size.width + px]?
      = if Frame.cellOf r.size px py < k
        then some (range.quantize (field (r.sampling.coordsOf r.size px py)))
        else pixels[py * r.size.width + px]? := by
  have hmem : ∀ w ∈ r.firstWrites field range k, w.x < r.size.width ∧ w.y < r.size.height ∧
      w.sample = range.quantize (field (r.sampling.coordsOf r.size w.x w.y)) :=
    fun w hw => mem_firstWrites hwidth hheight hk hw
  have hcount := countP_firstWrites hwidth hheight hk field range hpx hpy
  have hplace : py * r.size.width + px < pixels.size := hpixels ▸ rowMajor_lt hpx hpy
  have hinside : ∀ w ∈ r.firstWrites field range k, w.x < r.size.width :=
    fun w hw => (hmem w hw).1
  split at hcount
  · next hcell =>
    rw [if_pos hcell]
    refine Mosaic.getElem?_foldl_apply hpx hplace hinside (fun w hw hat => ?_)
      (Or.inl (List.countP_pos_iff.1 (hcount ▸ Nat.one_pos)))
    obtain ⟨rfl, rfl⟩ := Mosaic.Write.isAt_iff.1 hat
    exact (hmem w hw).2.2
  · next hcell =>
    rw [if_neg hcell, Array.getElem?_eq_getElem hplace]
    exact Mosaic.getElem?_foldl_apply hpx hplace hinside
      (fun w hw hat => absurd hat (List.countP_eq_zero.1 hcount w hw))
      (Or.inr (Array.getElem?_eq_getElem hplace))

/-- **The mosaic of a whole frame** has the sample of its height at every pixel. -/
theorem getElem?_foldl_firstWrites (hwidth : r.size.width < UInt32.size)
    (hheight : r.size.height < UInt32.size) (hsampling : r.sampling = .raster)
    {pixels : Array UInt16} (hpixels : pixels.size = r.size.area) (hpx : px < r.size.width)
    (hpy : py < r.size.height) :
    ((r.firstWrites field range (Frame.cellCount r.size)).foldl
        (Mosaic.Write.apply r.size) pixels)[py * r.size.width + px]?
      = some (range.quantize (field (Coords.ofPixel px py r.size.width r.size.height))) := by
  rw [getElem?_foldl_firstWrites_le hwidth hheight (Nat.le_refl _) hpixels hpx hpy,
    if_pos (Frame.cellOf_lt hpx hpy), hsampling]
  rfl

end TileRenderer

/-! ## The samples of an export -/

namespace Project

open ByteStream (feed)
open RowWriter (firstRows heightRowAt colorRowAt Drawn)

variable {p : Project} {field : Field Float32} {color : Field Color}

theorem exportMaps_of_create (hrange : p.validate = .ok ())
    (hheight : p.heightExpr.compile .float = .ok field)
    (hcolor : p.colorExpr.compile .vec3 = .ok color) {heights colors : ImageStream}
    {fs fs' : Files} (hcreate : MapWriter.create fs p.size p.outputs.height p.outputs.color
      = (.ok (RowWriter.start p.size heights colors), fs')) :
    ∃ w : MapWriter, p.exportMaps fs = w.finish fs' ∧ w.fault = none ∧
      w.heights = feed (firstRows (heightRowAt p.range field color p.size) p.size.height) heights ∧
      w.colors = feed (firstRows (colorRowAt field color p.size) p.size.height) colors := by
  -- The range is set before the first row is drawn.
  let w₀ : MapWriter := { RowWriter.start p.size heights colors with range := p.range }
  have hset : (RowWriter.start p.size heights colors).setRange p.range.min p.range.max = .ok w₀ :=
    RowWriter.setRange_of_validate hrange _
  have hstart : Drawn field color w₀ 0 w₀ :=
    ⟨rfl, rfl, Array.size_replicate, Array.size_replicate, rfl, rfl, rfl, rfl⟩
  have hend := hstart.foldl (heights.accepts _ _) (colors.accepts _ _) (Nat.le_refl p.size.height)
  have hdraw : p.renderInto w₀ = .ok ((List.range p.size.height).foldl
      (fun w y => w.writeRow (ScanlineRenderer.row field color p.size y)) w₀) :=
    ScanlineRenderer.render_eq_ok_foldl hheight hcolor p.size _ w₀
  refine ⟨_, ?_, hend.fault, hend.heights, hend.colors⟩
  simp only [exportMaps, hrange, hcreate, hset, hdraw]
  rfl

/-- The rows of the height map decode to the pixels that have the sample of the height at every
    pixel. -/
theorem ofGrayBytes_heights {stream : ImageStream} (hblank : stream.bytes = #[])
    {pixels : Array UInt16} (hpixels : pixels.size = p.size.area)
    (hsamples : ∀ x y, x < p.size.width → y < p.size.height →
      pixels[y * p.size.width + x]?
        = some (p.range.quantize (field (Coords.ofPixel x y p.size.width p.size.height)))) :
    Pixels.ofGrayBytes (feed (firstRows (heightRowAt p.range field color p.size) p.size.height)
      stream).bytes = .gray16 pixels := by
  have hrow : ∀ y, (heightRowAt p.range field color p.size y).size = p.size.width * 2 :=
    fun y => RowWriter.size_heightBytes _ _ _
  refine ImageStream.ofGrayBytes_feed hrow hblank hpixels ?_
  intro x y hx hy
  exact ⟨_, hsamples x y hx hy, RowWriter.getElem?_heightRowAt p.range hx y⟩

/-- **The height map of an export** is any image that has the sample of its height at every
    pixel. -/
theorem heightMap_of_exportMaps (hrange : p.validate = .ok ())
    (hwidth : 1 ≤ p.size.width ∧ p.size.width < UInt32.size)
    (hheight : 1 ≤ p.size.height ∧ p.size.height < UInt32.size)
    (hfield : p.heightExpr.compile .float = .ok field) {pixels : Array UInt16}
    (hpixels : pixels.size = p.size.area)
    (hsamples : ∀ x y, x < p.size.width → y < p.size.height →
      pixels[y * p.size.width + x]?
        = some (p.range.quantize (field (Coords.ofPixel x y p.size.width p.size.height))))
    {w₀ : MapWriter} {fs fs' : Files}
    (hcreate : MapWriter.create fs p.size p.outputs.height p.outputs.color = (.ok w₀, fs')) :
    ∃ w : MapWriter, p.exportMaps fs = (.ok (), w.close fs') ∧
      Pixels.ofGrayBytes w.heights.bytes = .gray16 pixels ∧
      w.heights.close .ofGrayBytes fs'
        = fs'.put w₀.heights.place (.image ⟨p.size, .gray16 pixels⟩) := by
  obtain ⟨-, color, hcolor⟩ := p.exprs_compile
  obtain ⟨heightPlace, colorPlace, -, -, rfl, -⟩ := MapWriter.create_eq_ok hcreate
  rw [Size.wrapped_of_lt hwidth.2 hheight.2] at hcreate ⊢
  obtain ⟨w, hexport, hfault, hheights, hcolors⟩ :=
    exportMaps_of_create hrange hfield hcolor hcreate
  have hheightSize : ∀ y, (heightRowAt p.range field color p.size y).size = p.size.width * 2 :=
    fun y => RowWriter.size_heightBytes _ _ _
  have hcolorSize : ∀ y, (colorRowAt field color p.size y).size = p.size.width * 3 :=
    fun y => RowWriter.size_colorBytes _ _
  obtain ⟨hheightBytes, hheightsDone⟩ := ImageStream.feed_firstRows_complete
    ⟨heightPlace, p.size, 2, #[]⟩ hwidth.1 hheight.1 Nat.two_pos rfl hheightSize
  obtain ⟨-, hcolorsDone⟩ := ImageStream.feed_firstRows_complete
    ⟨colorPlace, p.size, 3, #[]⟩ hwidth.1 hheight.1 (Nat.succ_pos 2) rfl hcolorSize
  rw [← hheights] at hheightBytes hheightsDone
  rw [← hcolors] at hcolorsDone
  have hgray : Pixels.ofGrayBytes w.heights.bytes = .gray16 pixels := by
    rw [hheights]
    exact ofGrayBytes_heights rfl hpixels hsamples
  have hresult : w.result = .ok () := by
    simp only [RowWriter.result, hfault, ByteStream.finishError?, hheightsDone, hcolorsDone]
  refine ⟨w, ?_, hgray, ?_⟩
  · rw [hexport, RowWriter.finish, hresult]
  · rw [ImageStream.close_eq_put, ImageStream.content_of_size hheightBytes, hgray, hheights,
      ImageStream.feed_eq]
    rfl

end Project

/-! ## Both -/

namespace Command.Preview

/-- Counting triangles changes nothing else. -/
theorem exists_countTriangles (t : Tile) (s : Progress) :
    ∃ n, countTriangles t s = { s with triangles := n } := by
  unfold countTriangles
  split
  · exact ⟨_, rfl⟩
  · exact ⟨s.triangles, rfl⟩

/-- The observers of a preview put every tile into the mosaic. -/
theorem sees_mosaic :
    Session.Sees Progress.mosaic (fun t m => m.add t) [collect, countTriangles] := by
  have hcollect : Session.Sees Progress.mosaic (fun t m => m.add t) [collect] := fun _ _ => rfl
  refine hcollect.append fun t s => ?_
  obtain ⟨n, hcount⟩ := exists_countTriangles t s
  rw [hcount]

theorem sees_cancelled :
    Session.Sees Progress.cancelled (fun _ c => c) [collect, countTriangles] := by
  have hcollect : Session.Sees Progress.cancelled (fun _ c => c) [collect] := fun _ _ => rfl
  refine hcollect.append fun t s => ?_
  obtain ⟨n, hcount⟩ := exists_countTriangles t s
  rw [hcount]

theorem renderer_eq_ok {p : Project} {field : Field Float32}
    (hfield : p.heightExpr.compile .float = .ok field) :
    renderer p none
      = .ok ⟨p.size, p.sampling, [collect, countTriangles], none, some field⟩ := by
  simp only [renderer, TileRenderer.setHeight, hfield]
  rfl

theorem size_pixels_new {size : Size} (hsize : size.wrapped = size) (range : HeightRange) :
    (Mosaic.new size range).pixels.size = size.area := by
  simp only [Mosaic.new, hsize, Array.size_replicate]

/-- A preview that is not cancelled has put all tiles of its frame into the mosaic. -/
theorem mosaic_of_run {r : TileRenderer Progress} {field : Field Float32} (range : HeightRange)
    {tick : Nat} (htick : 0 < tick) (hidle : r.frame = none) (hfield : r.height = some field)
    (hobservers : r.observers = [collect, countTriangles]) (hwrapped : r.size.wrapped = r.size) :
    let total := Frame.cellCount r.size
    let blank := Mosaic.new r.size range
    let ended := RenderJob.run ⟨tick⟩ Progress.cancelled r ⟨blank, 0, 0, false⟩
    ended.result = .ok ⟨total, total⟩ ∧
      ended.state.mosaic = ⟨r.size, range,
        (r.firstWrites field range total).foldl (Mosaic.Write.apply r.size) blank.pixels,
        total⟩ := by
  intro total blank ended
  have hrun : ended = ⟨.ok ⟨total, total⟩, r,
      TileRenderer.showAll r.observers (r.firstTiles field total) ⟨blank, 0, 0, false⟩⟩ := by
    refine RenderJob.run_of_unseen htick hidle hfield fun j _ => ?_
    rw [hobservers, TileRenderer.view_showAll sees_cancelled, List.foldl_fixed]
  have hview := TileRenderer.view_showAll sees_mosaic (r.firstTiles field total)
    ⟨blank, 0, 0, false⟩
  have hadd := Mosaic.foldl_add blank (r.firstTiles field total)
  have hblank : blank.size = r.size := hwrapped
  have htiles : blank.tiles + total = total := Nat.zero_add total
  rw [TileRenderer.length_firstTiles, hblank, htiles] at hadd
  constructor
  · rw [hrun]
  · rw [hrun, hobservers, hview, hadd]
    rfl

/-- **A preview shows what an export writes.** The tiles of a project that is sampled by its raster
    are all rendered, and together they write every pixel of the mosaic once, with the sample of the
    height at its centre. An export of the project that could create its files succeeds, the grey
    pixels that it writes are those of the mosaic, and its height file is left with the same
    image. -/
theorem preview_eq_export {p : Project} (hrange : p.validate = .ok ())
    (hwidth : 1 ≤ p.size.width ∧ p.size.width < UInt32.size)
    (hheight : 1 ≤ p.size.height ∧ p.size.height < UInt32.size) {tick : Nat} (htick : 0 < tick) :
    let total := (p.size.width ⌈/⌉ 256) * (p.size.height ⌈/⌉ 256)
    let blank := Mosaic.new p.size p.range
    ∃ (r : TileRenderer Progress) (field : Field Float32),
      renderer { p with sampling := .raster } none = .ok r ∧
      p.heightExpr.compile .float = .ok field ∧
      let ended := RenderJob.run ⟨tick⟩ Progress.cancelled r ⟨blank, 0, 0, false⟩
      let m := ended.state.mosaic
      let written := (r.firstTiles field total).flatMap (Mosaic.writes p.size p.range)
      ended.result = .ok ⟨total, total⟩ ∧ m.tiles = total ∧ m.size = p.size ∧
      m.pixels = written.foldl (Mosaic.Write.apply p.size) blank.pixels ∧
      (∀ x y, x < p.size.width → y < p.size.height →
        written.countP (·.isAt x y) = 1 ∧
        m.pixel? x y
          = some (p.range.quantize (field (Coords.ofPixel x y p.size.width p.size.height)))) ∧
      ∀ (fs fs' : Files) (w₀ : MapWriter),
        MapWriter.create fs p.size p.outputs.height p.outputs.color = (.ok w₀, fs') →
        ∃ w : MapWriter, p.exportMaps fs = (.ok (), w.close fs') ∧
          Pixels.ofGrayBytes w.heights.bytes = .gray16 m.pixels ∧
          w.heights.close .ofGrayBytes fs' = fs'.put w₀.heights.place (.image m.image) := by
  rw [← Frame.cellCount_eq_ceilDiv]
  intro total blank
  obtain ⟨⟨field, hfield⟩, -⟩ := p.exprs_compile
  let r : TileRenderer Progress :=
    ⟨p.size, .raster, [collect, countTriangles], none, some field⟩
  refine ⟨r, field, renderer_eq_ok (p := { p with sampling := .raster }) hfield, hfield, ?_⟩
  intro ended m written
  have hwrapped : p.size.wrapped = p.size := Size.wrapped_of_lt hwidth.2 hheight.2
  obtain ⟨hresult, hfinal⟩ := mosaic_of_run (r := r) p.range htick rfl rfl rfl hwrapped
  have hmosaic : m = ⟨p.size, p.range, written.foldl (Mosaic.Write.apply p.size) blank.pixels,
      total⟩ := hfinal
  have hpixels : m.pixels.size = p.size.area := by
    rw [hmosaic]
    exact (Mosaic.size_foldl_apply _ _).trans (size_pixels_new hwrapped p.range)
  have hpixel : ∀ x y, x < p.size.width → y < p.size.height →
      m.pixels[y * p.size.width + x]?
        = some (p.range.quantize (field (Coords.ofPixel x y p.size.width p.size.height))) := by
    intro x y hx hy
    rw [hmosaic]
    exact TileRenderer.getElem?_foldl_firstWrites (r := r) hwidth.2 hheight.2 rfl
      (size_pixels_new hwrapped p.range) hx hy
  refine ⟨hresult, by rw [hmosaic], by rw [hmosaic], by rw [hmosaic], fun x y hx hy => ⟨?_, ?_⟩,
    fun fs fs' w₀ hcreate => ?_⟩
  · have hcount := TileRenderer.countP_firstWrites (r := r) hwidth.2 hheight.2 (Nat.le_refl total)
      field p.range hx hy
    rw [if_pos (Frame.cellOf_lt hx hy)] at hcount
    exact hcount
  · have hsize : m.size = p.size := by rw [hmosaic]
    rw [Mosaic.pixel?, hsize, if_pos ⟨hx, hy⟩]
    exact hpixel x y hx hy
  · have himage : m.image = ⟨p.size, .gray16 m.pixels⟩ := by rw [hmosaic, Mosaic.image]
    rw [himage]
    exact Project.heightMap_of_exportMaps hrange hwidth hheight hfield hpixels hpixel hcreate

/-- A project of two tiles, the second one narrower, in an empty directory. -/
theorem preview_eq_export_two_tiles :
    let p : Project := { Project.standard with size := ⟨300, 2⟩ }
    p.validate = .ok () ∧ (1 ≤ p.size.width ∧ p.size.width < UInt32.size) ∧
    (1 ≤ p.size.height ∧ p.size.height < UInt32.size) ∧ 0 < RenderJob.standardTick ∧
    ∃ r : TileRenderer Progress, renderer { p with sampling := .raster } none = .ok r ∧
      let ended := RenderJob.run ⟨RenderJob.standardTick⟩ Progress.cancelled r
        ⟨Mosaic.new p.size p.range, 0, 0, false⟩
      ended.result = .ok ⟨2, 2⟩ ∧
      ∃ (w : MapWriter) (fs : Files), p.exportMaps Files.empty = (.ok (), w.close fs) ∧
        Pixels.ofGrayBytes w.heights.bytes = .gray16 ended.state.mosaic.pixels := by
  intro p
  have hrange : p.validate = .ok () := HeightRange.validate_unit
  have hwidth : 1 ≤ p.size.width ∧ p.size.width < UInt32.size := by decide
  have hheight : 1 ≤ p.size.height ∧ p.size.height < UInt32.size := by decide
  have htick : 0 < RenderJob.standardTick := by decide
  obtain ⟨w₀, fs, hcreate⟩ : ∃ w₀ fs, MapWriter.create Files.empty ⟨300, 2⟩ "height.png"
      "color.png" = (.ok w₀, fs) := ⟨_, _, rfl⟩
  obtain ⟨r, field, hrenderer, -, hresult, -, -, -, -, hexport⟩ :=
    preview_eq_export hrange hwidth hheight htick
  have htotal : (p.size.width ⌈/⌉ 256) * (p.size.height ⌈/⌉ 256) = 2 := by
    rw [← Frame.cellCount_eq_ceilDiv]
    decide
  rw [htotal] at hresult
  obtain ⟨w, hexported, hgray, -⟩ := hexport Files.empty fs w₀ hcreate
  exact ⟨hrange, hwidth, hheight, htick, r, hrenderer, hresult, w, fs, hexported, hgray⟩

end Command.Preview

end Relief
