import Relief.Proofs.Channels
import Relief.Proofs.Policies
import Relief.Proofs.Streaming

set_option autoImplicit false

/-! # Surfaces: the colours of a canvas and of an export

A canvas scales, clamps and truncates the channels of a colour in one place, and keeps three bytes
for a pixel. An export does it in two: a scanline renderer scales and clamps into rows of four
numbers for a pixel, and a row writer truncates what it reads there and hands three bytes for a
pixel to its colour stream. The bytes are the same (`sends_surface`).

What the streams do with the rows does not matter for this, as they see only bytes. A stream may
refuse a row at any time, and then the rows after it are not sent; but what was sent by then are the
first rows of the surface (`Sent`). -/

namespace Relief

namespace RowWriter

variable {ε : Type} [ByteStream ε] {field : Field Float32} {color : Field Color}
  {w₀ w : RowWriter ε} {n : Nat}

open ByteStream (feed Accepts)

/-! ## What is sent -/

/-- A writer that was pushed the first `n` rows. Its colour stream was handed the first rows of the
    colour map, and all `n` of them unless one was refused. -/
structure Sent (field : Field Float32) (color : Field Color) (w₀ : RowWriter ε) (n : Nat)
    (w : RowWriter ε) : Prop where
  size : w.size = w₀.size
  heightRow : w.heightRow.size = w₀.size.width * 2
  colorRow : w.colorRow.size = w₀.size.width * 3
  colors : ∃ k, k ≤ n ∧ w.colors = feed (firstRows (colorRowAt field color w₀.size) k) w₀.colors ∧
    (w.fault = none → k = n)

/-- A writer that was handed rows without a failure has sent them all. -/
theorem Drawn.sent (hw : Drawn field color w₀ n w) : Sent field color w₀ n w :=
  ⟨hw.size, hw.heightRow, hw.colorRow, n, Nat.le_refl n, hw.colors, fun _ => rfl⟩

/-- **One row more**, whatever the streams make of it. -/
theorem Sent.writeRow (hw : Sent field color w₀ n w) :
    Sent field color w₀ (n + 1) (w.writeRow (ScanlineRenderer.row field color w₀.size n)) := by
  obtain ⟨k, hk, hcolors, hall⟩ := hw.colors
  cases hfault : w.fault with
  | some err =>
      rw [writeRow_of_fault (by rw [hfault, Option.isSome_some])]
      refine ⟨hw.size, hw.heightRow, hw.colorRow, k, Nat.le_succ_of_le hk, hcolors, ?_⟩
      intro hnone
      rw [hfault] at hnone
      cases hnone
  | none =>
      obtain rfl : k = n := hall hfault
      have hrow : (ScanlineRenderer.row field color w₀.size k).size = w.size.width * 4 := by
        rw [hw.size, ScanlineRenderer.size_row]
      have hcolumns : (ScanlineRenderer.row field color w₀.size k).size / 4 = w₀.size.width := by
        rw [ScanlineRenderer.size_row, Nat.mul_div_cancel _ (by decide)]
      have hput := putRow_of_pixels hcolumns (fun i hi => Pixel.ofRow_row hi) hw.heightRow
        hw.colorRow
      -- What the colour stream becomes if it is handed the row.
      have hnext : (ByteStream.write (colorRowAt field color w₀.size k) w.colors).2
          = feed (firstRows (colorRowAt field color w₀.size) (k + 1)) w₀.colors := by
        rw [firstRows_succ, ByteStream.feed_concat, hcolors]
      simp only [RowWriter.writeRow, hfault, Option.isSome_none, Bool.false_eq_true, if_false,
        tryRow, if_pos hrow, hput, flush]
      cases ByteStream.write (heightBytes _ _ _) w.heights with
      | mk taken heights =>
          cases taken with
          | error err =>
              refine ⟨hw.size, size_heightBytes _ _ _, size_colorBytes _ _, k, Nat.le_succ k,
                hcolors, ?_⟩
              intro hnone
              cases hnone
          | ok =>
              rw [← colorRowAt]
              cases hwrite : ByteStream.write (colorRowAt field color w₀.size k) w.colors with
              | mk taken colors =>
                  rw [hwrite] at hnext
                  cases taken with
                  | error err =>
                      refine ⟨hw.size, size_heightBytes _ _ _, size_colorBytes _ _, k + 1,
                        Nat.le_refl _, hnext, ?_⟩
                      intro hnone
                      cases hnone
                  | ok =>
                      exact ⟨hw.size, size_heightBytes _ _ _, size_colorBytes _ _, k + 1,
                        Nat.le_refl _, hnext, fun _ => rfl⟩

/-- All rows, whatever the streams make of them. -/
theorem Sent.foldl (hw : Sent field color w₀ 0 w₀) (n : Nat) :
    Sent field color w₀ n ((List.range n).foldl
      (fun w y => w.writeRow (ScanlineRenderer.row field color w₀.size y)) w₀) := by
  induction n with
  | zero => exact hw
  | succ n ih =>
      rw [List.range_succ, List.foldl_append]
      exact ih.writeRow

end RowWriter

/-! ## What a canvas shows -/

/-- The byte of each channel of a colour. -/
theorem Rgb.getElem?_toList_ofColor (color : Color) (j : Fin 3) :
    (ofColor color).toList[j.val]? = some (Binary32.toByte (Pixel.scale (color.get j))) := by
  match j with
  | 0 => rfl
  | 1 => rfl
  | 2 => rfl

namespace Easel

variable {σ : Type} {s : σ} {edits : List (Canvas.Call σ)} {colors : Expr} {color : Field Color}
  {size : Size}

/-- A surface that is computed shows the last colour that was sent, at every pixel. -/
theorem getElem?_surface (hsize : ((start s).follow edits).canvas.size = size)
    (hlast : (Easel.colors edits).getLast? = some (some colors))
    (hcolors : colors.lower .vec3 = some color) {x y : Nat} (hx : x < size.width)
    (hy : y < size.height) :
    ((start s).follow (edits ++ [.compute .color])).canvas.surface[y * size.width + x]?
      = some (Rgb.ofColor (color (Coords.ofPixel x y size.width size.height))) := by
  have hfield : ((start s).follow edits).canvas.colorField = color := by
    rw [(fields_follow_start s edits).2, hlast]
    simp only [Option.join_some, Canvas.shown, Option.bind_some, hcolors, Option.getD_some]
  have hplace : Canvas.coords size (y * size.width + x)
      = Coords.ofPixel x y size.width size.height := by
    obtain ⟨hcolumn, hrow⟩ := (rowMajor_iff hx).2 (rfl : y * size.width + x = _)
    rw [Canvas.coords, hcolumn, hrow]
  rw [follow_append, ← hplace, ← hfield]
  subst hsize
  exact getElem?_compute ((fitted_start s).follow edits) .color (rowMajor_lt hx hy)

/-- The surface has a colour for every pixel and no more. -/
theorem size_surface (hsize : ((start s).follow edits).canvas.size = size) :
    ((start s).follow (edits ++ [.compute .color])).canvas.surface.size
      = size.width * size.height := by
  have hkeep : ((start s).follow (edits ++ [.compute .color])).canvas.size = size := by
    rw [follow_append, ← hsize]
    exact size_serve_of_ne (q := .compute .color) fun _ => nofun
  rw [← hkeep]
  exact (fitted_start s).follow (edits ++ [.compute .color]) .color

end Easel

namespace RowWriter

variable {ε : Type} [ByteStream ε] {field : Field Float32} {color : Field Color}

open ByteStream (feed Accepts)

/-- **An export sends the colours that a canvas shows.** Let a canvas be resized and edited in any
    way that leaves it with a size and a colour expression, and compute its surface. A writer that
    the same expression is drawn into hands its colour stream rows of bytes, from top to bottom, and
    the three bytes at column `x` of row `y` are those of the surface at `y * width + x`, in the same
    order. This holds for every row that is sent; if no row is refused, which needs streams that take
    a whole image, that is every row of the raster.

    Each byte is the channel scaled, clamped and truncated. One that is not above zero gives 0,
    whether it is negative, a zero of either sign or a NaN, and one that reaches one gives 255. -/
theorem sends_surface {height colors : Expr} (hheight : height.compile .float = .ok field)
    (hcolors : colors.compile .vec3 = .ok color) (size : Size) (range : HeightRange)
    (heightStream colorStream : ε) {σ : Type} (s : σ) {edits : List (Canvas.Call σ)}
    (hsize : ((Easel.start s).follow edits).canvas.size = size)
    (hlast : (Easel.colors edits).getLast? = some (some colors)) :
    let surface := ((Easel.start s).follow (edits ++ [.compute .color])).canvas.surface
    ∃ (w : RowWriter ε) (rows : List (Array UInt8)),
      { start size heightStream colorStream with range := range }.drawRows size height colors
        = .ok w ∧
      w.colors = feed rows colorStream ∧ rows.length ≤ size.height ∧
      (w.fault = none → rows.length = size.height) ∧
      (Accepts (size.width * 2) size.height heightStream →
        Accepts (size.width * 3) size.height colorStream → w.fault = none) ∧
      surface.size = size.width * size.height ∧
      ∀ y row, rows[y]? = some row → row.size = size.width * 3 ∧
        ∀ x, x < size.width → ∃ rgb, surface[y * size.width + x]? = some rgb ∧
          ∀ j : Fin 3, ∃ byte,
            let channel := (color (Coords.ofPixel x y size.width size.height)).get j
            row[x * 3 + j.val]? = some byte ∧ rgb.toList[j.val]? = some byte ∧
            byte = Binary32.toByte
              (Binary32.clamp Binary32.zero Binary32.byteTop (channel * Binary32.byteTop)) ∧
            (channel.isNaN = true → byte = 0) ∧
            (¬ Binary32.zero < channel → byte = 0) ∧ (Binary32.one ≤ channel → byte = 255) := by
  intro surface
  let w₀ : RowWriter ε := { start size heightStream colorStream with range := range }
  have hstart : Drawn field color w₀ 0 w₀ :=
    ⟨rfl, rfl, Array.size_replicate, Array.size_replicate, rfl, rfl, rfl, rfl⟩
  have hrun : w₀.drawRows size height colors = .ok ((List.range size.height).foldl
      (fun w y => w.writeRow (ScanlineRenderer.row field color size y)) w₀) :=
    ScanlineRenderer.render_eq_ok_foldl hheight hcolors size _ w₀
  obtain ⟨k, hk, hsent, hall⟩ := (hstart.sent.foldl size.height).colors
  refine ⟨_, firstRows (colorRowAt field color size) k, hrun, hsent, ?_, ?_, ?_, ?_, ?_⟩
  · rwa [length_firstRows]
  · rwa [length_firstRows]
  · intro hheights hcolors
    exact (hstart.foldl hheights hcolors (Nat.le_refl size.height)).fault
  · exact Easel.size_surface hsize
  · intro y row hrow
    have hy : y < k := by
      have hlength := (List.getElem?_eq_some_iff.1 hrow).1
      rwa [length_firstRows] at hlength
    rw [getElem?_firstRows _ hy] at hrow
    obtain rfl := Option.some.inj hrow
    refine ⟨size_colorBytes _ _, ?_⟩
    intro x hx
    have hpixel := Easel.getElem?_surface hsize hlast (Expr.compile_eq_ok_iff.1 hcolors) hx
      (Nat.lt_of_lt_of_le hy hk)
    refine ⟨_, hpixel, ?_⟩
    intro j
    exact ⟨_, getElem?_colorRowAt hx y j, Rgb.getElem?_toList_ofColor _ j, rfl,
      Pixel.toByte_scale_of_isNaN, Pixel.toByte_scale_of_not_pos, Pixel.toByte_scale_of_one_le⟩

/-- A black, a white and a ramp channel, of two by one pixels that go into files. -/
theorem sends_surface_ramp :
    let height : Expr := .var .u
    let colors : Expr := .vec3 (.float (-Binary32.one)) (.float Binary32.one) (.var .u)
    let size : Size := ⟨2, 1⟩
    let heightStream : ImageStream := ⟨["height.png"], size, 2, #[]⟩
    let colorStream : ImageStream := ⟨["color.png"], size, 3, #[]⟩
    let edits : List (Canvas.Call Unit) := [.resize size, .setColor (some colors)]
    (∃ field, height.compile .float = .ok field) ∧ (∃ color, colors.compile .vec3 = .ok color) ∧
    ((Easel.start ()).follow edits).canvas.size = size ∧
    (Easel.colors edits).getLast? = some (some colors) ∧
    ∃ (w : RowWriter ImageStream) (row : Array UInt8) (rgb : Rgb),
      { start size heightStream colorStream with range := .unit }.drawRows size height colors
        = .ok w ∧
      w.colors = feed [row] colorStream ∧ w.fault = none ∧
      ((Easel.start ()).follow (edits ++ [.compute .color])).canvas.surface[0]? = some rgb ∧
      row[0]? = some 0 ∧ rgb.red = 0 ∧ row[1]? = some 255 ∧ rgb.green = 255 := by
  intro height colors size heightStream colorStream edits
  have hheight : height.compile .float = .ok fun c => c.along .u := rfl
  have hcolors : colors.compile .vec3
      = .ok fun c => #v[-Binary32.one, Binary32.one, c.along .u] := rfl
  have hsize : ((Easel.start ()).follow edits).canvas.size = size := rfl
  have hlast : (Easel.colors edits).getLast? = some (some colors) := rfl
  obtain ⟨w, rows, hdraw, hsent, -, hall, hfault, -, hpixels⟩ :=
    sends_surface hheight hcolors size .unit heightStream colorStream () hsize hlast
  have hnone : w.fault = none := hfault (heightStream.accepts _ _) (colorStream.accepts _ _)
  obtain ⟨row, rfl⟩ := List.length_eq_one_iff.1 (hall hnone)
  obtain ⟨-, hrow⟩ := hpixels 0 row rfl
  obtain ⟨rgb, hsurface, hbytes⟩ := hrow 0 (by decide)
  obtain ⟨red, hred, hred', -, -, hblack, -⟩ := hbytes 0
  obtain ⟨green, hgreen, hgreen', -, -, -, hwhite⟩ := hbytes 1
  rw [hblack (by decide)] at hred hred'
  rw [hwhite (by decide)] at hgreen hgreen'
  exact ⟨⟨_, hheight⟩, ⟨_, hcolors⟩, hsize, hlast, w, row, rgb, hdraw, hsent, hnone, hsurface,
    hred, Option.some.inj hred', hgreen, Option.some.inj hgreen'⟩

end RowWriter

end Relief
