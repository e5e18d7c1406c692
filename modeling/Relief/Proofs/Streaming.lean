import Relief.Export.Run
import Relief.Proofs.Semantics
import Relief.Proofs.Writing

set_option autoImplicit false

/-! # Streaming: the images of a whole export

An export renders scanlines into a row writer, which hands bytes to two streams. What the streams
do with them is their business; here they are asked only to take as many rows as the image has
(`ByteStream.Accepts`). Then none of the rows is refused, and each stream was handed exactly the
rows of the specified image, from top to bottom (`writes_images`). The invariant that carries this
from row to row is `Drawn`. -/

namespace Relief

/-! ## Streams -/

namespace ByteStream

variable {ε : Type} [ByteStream ε] {length n : Nat} {stream : ε} {rows : List (Array UInt8)}

/-- What a stream becomes when it is handed rows of bytes, one after the other. -/
def feed (rows : List (Array UInt8)) (stream : ε) : ε :=
  rows.foldl (fun stream row => (write row stream).2) stream

/-- Whether a stream takes `n` more rows of the given length, whatever is in them. -/
def Accepts (length : Nat) : Nat → ε → Prop
  | 0, _ => True
  | n + 1, stream => ∀ row : Array UInt8, row.size = length →
      (write row stream).1 = .ok () ∧ Accepts length n (write row stream).2

theorem feed_concat (rows : List (Array UInt8)) (row : Array UInt8) (stream : ε) :
    feed (rows ++ [row]) stream = (write row (feed rows stream)).2 := by
  rw [feed, List.foldl_append, ← feed]
  rfl

/-- What a stream still takes after some of the rows. -/
theorem Accepts.feed (hrows : ∀ row ∈ rows, row.size = length)
    (h : Accepts length (rows.length + n) stream) : Accepts length n (feed rows stream) := by
  induction rows generalizing stream with
  | nil => rwa [List.length_nil, Nat.zero_add] at h
  | cons row rest ih =>
      rw [List.length_cons, Nat.add_right_comm] at h
      have hrow := h row (hrows row (List.mem_cons_self ..))
      exact ih (fun row' hrow' => hrows row' (List.mem_cons_of_mem _ hrow')) hrow.2

/-- One of the rows that a stream takes. -/
theorem Accepts.write_feed (h : Accepts length n stream) (hlt : rows.length < n)
    (hrows : ∀ row ∈ rows, row.size = length) {row : Array UInt8} (hrow : row.size = length) :
    write row (ByteStream.feed rows stream)
      = (.ok (), ByteStream.feed (rows ++ [row]) stream) := by
  obtain ⟨left, rfl⟩ : ∃ left, n = rows.length + (left + 1) := ⟨n - rows.length - 1, by omega⟩
  rw [feed_concat]
  exact Prod.ext (h.feed hrows row hrow).1 rfl

end ByteStream

/-- A file being written takes everything. -/
theorem ImageStream.accepts (length n : Nat) (stream : ImageStream) :
    ByteStream.Accepts length n stream := by
  induction n generalizing stream with
  | zero => trivial
  | succ n ih => exact fun row _ => ⟨rfl, ih (stream.push row)⟩

namespace RowWriter

variable {ε : Type} [ByteStream ε] {field : Field Float32} {color : Field Color}
  {w₀ w : RowWriter ε} {n : Nat}

open ByteStream (feed Accepts)

/-! ## Rows -/

/-- The bytes of row `y` of the height map. -/
def heightRowAt (range : HeightRange) (field : Field Float32) (color : Field Color) (size : Size)
    (y : Nat) : Array UInt8 :=
  heightBytes range size.width (ScanlineRenderer.pixelAt field color size y)

/-- The bytes of row `y` of the colour map. -/
def colorRowAt (field : Field Float32) (color : Field Color) (size : Size) (y : Nat) :
    Array UInt8 :=
  colorBytes size.width (ScanlineRenderer.pixelAt field color size y)

/-- The first `n` rows, from the top. -/
def firstRows (row : Nat → Array UInt8) (n : Nat) : List (Array UInt8) := (List.range n).map row

theorem length_firstRows (row : Nat → Array UInt8) (n : Nat) : (firstRows row n).length = n := by
  rw [firstRows, List.length_map, List.length_range]

theorem firstRows_succ (row : Nat → Array UInt8) (n : Nat) :
    firstRows row (n + 1) = firstRows row n ++ [row n] := by
  rw [firstRows, List.range_succ, List.map_append]
  rfl

theorem getElem?_firstRows (row : Nat → Array UInt8) {n y : Nat} (hy : y < n) :
    (firstRows row n)[y]? = some (row y) := by
  rw [firstRows, List.getElem?_map, List.getElem?_range hy]
  rfl

theorem size_of_mem_firstRows {row : Nat → Array UInt8} {length : Nat}
    (hrow : ∀ y, (row y).size = length) : ∀ bytes ∈ firstRows row n, bytes.size = length := by
  intro bytes hbytes
  obtain ⟨y, -, rfl⟩ := List.mem_map.1 hbytes
  exact hrow y

/-! ## From row to row -/

/-- A writer that was handed the first `n` rows: it holds no failure, and its streams were handed
    the bytes of these rows. -/
structure Drawn (field : Field Float32) (color : Field Color) (w₀ : RowWriter ε) (n : Nat)
    (w : RowWriter ε) : Prop where
  size : w.size = w₀.size
  range : w.range = w₀.range
  heightRow : w.heightRow.size = w₀.size.width * 2
  colorRow : w.colorRow.size = w₀.size.width * 3
  heights : w.heights = feed (firstRows (heightRowAt w₀.range field color w₀.size) n) w₀.heights
  colors : w.colors = feed (firstRows (colorRowAt field color w₀.size) n) w₀.colors
  rowsWritten : w.rowsWritten = w₀.rowsWritten + n
  fault : w.fault = none

/-- **One row more**, as long as both streams take it. -/
theorem Drawn.writeRow (hw : Drawn field color w₀ n w)
    (hheights : Accepts (w₀.size.width * 2) w₀.size.height w₀.heights)
    (hcolors : Accepts (w₀.size.width * 3) w₀.size.height w₀.colors) (hn : n < w₀.size.height) :
    Drawn field color w₀ (n + 1)
      (w.writeRow (ScanlineRenderer.row field color w₀.size n)) := by
  have hheightSize : ∀ y, (heightRowAt w₀.range field color w₀.size y).size
      = w₀.size.width * 2 := fun y => size_heightBytes _ _ _
  have hcolorSize : ∀ y, (colorRowAt field color w₀.size y).size = w₀.size.width * 3 :=
    fun y => size_colorBytes _ _
  -- Both streams were handed `n` rows, fewer than they take.
  have htakesHeights := hheights.write_feed (by rwa [length_firstRows])
    (size_of_mem_firstRows hheightSize) (hheightSize n)
  have htakesColors := hcolors.write_feed (by rwa [length_firstRows])
    (size_of_mem_firstRows hcolorSize) (hcolorSize n)
  rw [← firstRows_succ, ← hw.heights] at htakesHeights
  rw [← firstRows_succ, ← hw.colors] at htakesColors
  rw [writeRow_of_ok hw.fault (by rw [hw.size, ScanlineRenderer.size_row])
    (fun i hi => Pixel.ofRow_row hi) (by rw [hw.size, hw.heightRow])
    (by rw [hw.size, hw.colorRow]) (by rw [hw.range, hw.size]; exact htakesHeights)
    (by rw [hw.size]; exact htakesColors)]
  exact ⟨hw.size, hw.range, hw.size ▸ size_heightBytes _ _ _, hw.size ▸ size_colorBytes _ _,
    rfl, rfl, by simp [hw.rowsWritten, Nat.add_assoc], hw.fault⟩

/-- All rows, as long as both streams take them. -/
theorem Drawn.foldl (hw : Drawn field color w₀ 0 w₀)
    (hheights : Accepts (w₀.size.width * 2) w₀.size.height w₀.heights)
    (hcolors : Accepts (w₀.size.width * 3) w₀.size.height w₀.colors) (hn : n ≤ w₀.size.height) :
    Drawn field color w₀ n ((List.range n).foldl
      (fun w y => w.writeRow (ScanlineRenderer.row field color w₀.size y)) w₀) := by
  induction n with
  | zero => exact hw
  | succ n ih =>
      rw [List.range_succ, List.foldl_append]
      exact (ih (Nat.le_of_succ_le hn)).writeRow hheights hcolors hn

/-! ## A whole export -/

/-- The two bytes of a height: its sample, the higher byte first. -/
theorem getElem?_heightRowAt (range : HeightRange) {size : Size} {x : Nat} (hx : x < size.width)
    (y : Nat) :
    let q := range.quantize (field (Coords.ofPixel x y size.width size.height))
    (heightRowAt range field color size y)[x * 2]? = some (q >>> 8).toUInt8 ∧
      (heightRowAt range field color size y)[x * 2 + 1]? = some q.toUInt8 :=
  ⟨getElem?_heightBytes range _ hx (j := 0) (by decide),
    getElem?_heightBytes range _ hx (j := 1) (by decide)⟩

/-- The three bytes of a colour, each its channel scaled, clamped and truncated. -/
theorem getElem?_colorRowAt {size : Size} {x : Nat} (hx : x < size.width) (y : Nat) (j : Fin 3) :
    (colorRowAt field color size y)[x * 3 + j.val]? = some (Binary32.toByte
      (Pixel.scale (color (Coords.ofPixel x y size.width size.height))[j])) := by
  rw [colorRowAt, getElem?_colorBytes _ hx j.isLt]
  match j with
  | 0 => rfl
  | 1 => rfl
  | 2 => rfl

/-- **An export writes exactly the specified images.** Whatever the expressions are, as long as
    they are a number and a colour, and whatever valid range is set, no row is refused by streams
    that take a whole image, and both streams are handed one row of bytes for each row of the
    raster, from top to bottom. The bytes of a pixel depend on its place only: the sample of the
    height at its centre with the higher byte first, and the channels of the colour there scaled,
    clamped and truncated, where a NaN gives zero. -/
theorem writes_images {height colors : Expr} (hheight : height.compile .float = .ok field)
    (hcolors : colors.compile .vec3 = .ok color) {range : HeightRange}
    (hrange : range.validate = .ok ()) {size : Size} {heightStream colorStream : ε}
    (hheightStream : Accepts (size.width * 2) size.height heightStream)
    (hcolorStream : Accepts (size.width * 3) size.height colorStream) :
    (∃ (w₀ w : RowWriter ε) (heightRows colorRows : List (Array UInt8)),
      (start size heightStream colorStream).setRange range.min range.max = .ok w₀ ∧
      w₀.drawRows size height colors = .ok w ∧ w.fault = none ∧ w.rowsWritten = size.height ∧
      w.heights = feed heightRows heightStream ∧ heightRows.length = size.height ∧
      w.colors = feed colorRows colorStream ∧ colorRows.length = size.height ∧
      ∀ y, y < size.height → ∃ heightRow colorRow : Array UInt8,
        heightRows[y]? = some heightRow ∧ heightRow.size = size.width * 2 ∧
        colorRows[y]? = some colorRow ∧ colorRow.size = size.width * 3 ∧
        ∀ x, x < size.width →
          let c : Coords :=
            { u := (Binary32.ofSize x + Binary32.half) / Binary32.ofSize size.width
              v := (Binary32.ofSize y + Binary32.half) / Binary32.ofSize size.height }
          let q := range.quantize (field c)
          (heightRow[x * 2]? = some (q >>> 8).toUInt8 ∧
            heightRow[x * 2 + 1]? = some q.toUInt8) ∧
          ∀ j : Fin 3,
            let channel := (color c)[j]
            colorRow[x * 3 + j.val]? = some (Binary32.toByte
              (Binary32.clamp Binary32.zero Binary32.byteTop (channel * Binary32.byteTop))) ∧
            (channel.isNaN = true → colorRow[x * 3 + j.val]? = some 0)) ∧
    ∀ p : Project, (∃ field, p.heightExpr.compile .float = .ok field) ∧
      ∃ color, p.colorExpr.compile .vec3 = .ok color := by
  refine ⟨?_, Project.exprs_compile⟩
  -- The writer as it is before the first row is drawn as far as no row.
  let w₀ : RowWriter ε := { start size heightStream colorStream with range := range }
  have hstart : Drawn field color w₀ 0 w₀ :=
    ⟨rfl, rfl, Array.size_replicate, Array.size_replicate, rfl, rfl, rfl, rfl⟩
  have hend := hstart.foldl hheightStream hcolorStream (Nat.le_refl size.height)
  have hrun : w₀.drawRows size height colors = .ok ((List.range size.height).foldl
      (fun w y => w.writeRow (ScanlineRenderer.row field color size y)) w₀) :=
    ScanlineRenderer.render_eq_ok_foldl hheight hcolors size _ w₀
  refine ⟨w₀, _, firstRows (heightRowAt range field color size) size.height,
    firstRows (colorRowAt field color size) size.height, setRange_of_validate hrange _, hrun,
    hend.fault, hend.rowsWritten.trans (Nat.zero_add _), hend.heights, length_firstRows _ _,
    hend.colors, length_firstRows _ _, ?_⟩
  intro y hy
  refine ⟨_, _, getElem?_firstRows _ hy, size_heightBytes _ _ _, getElem?_firstRows _ hy,
    size_colorBytes _ _, fun x hx => ?_⟩
  refine ⟨getElem?_heightRowAt range hx y, fun j => ?_⟩
  have hbyte : (colorRowAt field color size y)[x * 3 + j.val]? = _ := getElem?_colorRowAt hx y j
  refine ⟨hbyte, fun hnan => ?_⟩
  rw [hbyte]
  exact congrArg some (Pixel.toByte_scale_of_isNaN hnan)

/-- A ramp of three by two pixels, into files. -/
theorem writes_images_ramp :
    let height : Expr := .var .u
    let colors : Expr := .vec3 (.var .u) (.var .v) (.var .u)
    let size : Size := ⟨3, 2⟩
    let heightStream : ImageStream := ⟨["height.png"], size, 2, #[]⟩
    let colorStream : ImageStream := ⟨["color.png"], size, 3, #[]⟩
    (∃ field, height.compile .float = .ok field) ∧ (∃ color, colors.compile .vec3 = .ok color) ∧
    HeightRange.unit.validate = .ok () ∧
    Accepts (size.width * 2) size.height heightStream ∧
    Accepts (size.width * 3) size.height colorStream ∧
    ∃ w₀ w : RowWriter ImageStream,
      (start size heightStream colorStream).setRange HeightRange.unit.min HeightRange.unit.max
        = .ok w₀ ∧
      w₀.drawRows size height colors = .ok w ∧ w.fault = none ∧ w.rowsWritten = 2 := by
  intro height colors size heightStream colorStream
  have hheight : height.compile .float = .ok fun c => c.along .u := rfl
  have hcolors : colors.compile .vec3 = .ok fun c => #v[c.along .u, c.along .v, c.along .u] := rfl
  have hrange : HeightRange.unit.validate = .ok () := HeightRange.validate_unit
  have hheightStream := heightStream.accepts (size.width * 2) size.height
  have hcolorStream := colorStream.accepts (size.width * 3) size.height
  obtain ⟨⟨w₀, w, -, -, hset, hdraw, hfault, hrows, -⟩, -⟩ :=
    writes_images hheight hcolors hrange hheightStream hcolorStream
  exact ⟨⟨_, hheight⟩, ⟨_, hcolors⟩, hrange, hheightStream, hcolorStream, w₀, w, hset, hdraw,
    hfault, hrows⟩

end RowWriter

end Relief
