import Relief.Export.Writer
import Relief.Proofs.Scanlines

set_option autoImplicit false

/-! # Writing: the bytes of one row

A row writer goes through a row pixel by pixel and puts the bytes of each into two buffers of
different strides. The two buffers do not get in each other's way, so a row is two fills
(`putRow_of_pixels`), and what is handed to the streams is the same as for blank buffers
(`writeRow_of_ok`). The pixels that a writer reads from a scanline are those that were drawn
(`Pixel.ofRow_row`). -/

namespace Relief

/-! ## Pixels -/

/-- A writer reads the pixels that a renderer has drawn. -/
theorem Pixel.ofRow_row {height : Field Float32} {color : Field Color} {size : Size} {y i : Nat}
    (hi : i < (ScanlineRenderer.row height color size y).size / 4) :
    Pixel.ofRow (ScanlineRenderer.row height color size y) i hi
      = ScanlineRenderer.pixelAt height color size y i := by
  have hx : i < size.width := by
    rw [ScanlineRenderer.size_row] at hi
    omega
  have hplace : ∀ {j : Nat} (hj : j < 4) (h : i * 4 + j < _),
      (ScanlineRenderer.row height color size y)[i * 4 + j]
        = (ScanlineRenderer.pixelAt height color size y i).channels.get ⟨j, hj⟩ := by
    intro j hj h
    have hget : (ScanlineRenderer.row height color size y)[i * 4 + j]? = _ :=
      ScanlineRenderer.getElem?_row hx y hj
    rw [Array.getElem?_eq_getElem h] at hget
    exact Option.some.inj hget
  -- A pixel is its four numbers.
  unfold Pixel.ofRow
  congr 1
  · exact hplace (j := 0) (by decide) (by omega)
  · exact hplace (j := 1) (by decide) (by omega)
  · exact hplace (j := 2) (by decide) (by omega)
  · exact hplace (j := 3) (by decide) (by omega)

namespace RowWriter

variable {ε : Type}

/-! ## Two buffers -/

/-- The bytes of the first `n` pixels of a row in the height map. -/
def heightBytes (range : HeightRange) (n : Nat) (pixel : Nat → Pixel) : Array UInt8 :=
  Strided.fill (Array.replicate (n * 2) 0) n fun i => (pixel i).heightBytes range

/-- The bytes of the first `n` pixels of a row in the colour map. -/
def colorBytes (n : Nat) (pixel : Nat → Pixel) : Array UInt8 :=
  Strided.fill (Array.replicate (n * 3) 0) n fun i => (pixel i).colorBytes

theorem size_heightBytes (range : HeightRange) (n : Nat) (pixel : Nat → Pixel) :
    (heightBytes range n pixel).size = n * 2 := by
  rw [heightBytes, Strided.size_fill, Array.size_replicate]

theorem size_colorBytes (n : Nat) (pixel : Nat → Pixel) : (colorBytes n pixel).size = n * 3 := by
  rw [colorBytes, Strided.size_fill, Array.size_replicate]

theorem getElem?_heightBytes (range : HeightRange) {n : Nat} (pixel : Nat → Pixel) {i j : Nat}
    (hi : i < n) (hj : j < 2) :
    (heightBytes range n pixel)[i * 2 + j]? = some (((pixel i).heightBytes range).get ⟨j, hj⟩) :=
  Strided.getElem?_fill _ _ hi hj (by rw [Array.size_replicate]; omega)

theorem getElem?_colorBytes {n : Nat} (pixel : Nat → Pixel) {i j : Nat} (hi : i < n)
    (hj : j < 3) : (colorBytes n pixel)[i * 3 + j]? = some ((pixel i).colorBytes.get ⟨j, hj⟩) :=
  Strided.getElem?_fill _ _ hi hj (by rw [Array.size_replicate]; omega)

/-- Putting pixels into both buffers in turn fills each of them. -/
theorem fold_putPixel (w : RowWriter ε) (n : Nat) (pixel : Nat → Pixel) :
    Nat.fold n (fun i _ w => w.putPixel i (pixel i)) w = { w with
      heightRow := Strided.fill w.heightRow n fun i => (pixel i).heightBytes w.range
      colorRow := Strided.fill w.colorRow n fun i => (pixel i).colorBytes } := by
  induction n with
  | zero => rfl
  | succ n ih => rw [Nat.fold_succ, ih, putPixel, Strided.fill_succ, Strided.fill_succ]

/-- **Nothing is left in the buffers of an earlier row.** -/
theorem putRow_of_pixels {w : RowWriter ε} {row : Array Float32} {n : Nat} {pixel : Nat → Pixel}
    (hn : row.size / 4 = n) (hpixel : ∀ i hi, Pixel.ofRow row i hi = pixel i)
    (hheights : w.heightRow.size = n * 2) (hcolors : w.colorRow.size = n * 3) :
    w.putRow row = { w with
      heightRow := heightBytes w.range n pixel
      colorRow := colorBytes n pixel } := by
  subst hn
  -- The pixels are read from the row at bounded places; from here on only their numbers matter.
  simp only [putRow, hpixel]
  rw [fold_putPixel, Strided.fill_eq_fill _ hheights Array.size_replicate,
    Strided.fill_eq_fill _ hcolors Array.size_replicate]
  rfl

/-! ## Both streams -/

/-- A writer that has refused a row stays as it is. -/
theorem writeRow_of_fault [ByteStream ε] {w : RowWriter ε} (hfault : w.fault.isSome = true)
    (values : Array Float32) : w.writeRow values = w := by
  rw [writeRow, if_pos hfault]

/-- A row of the right length goes to both streams when both take it. -/
theorem writeRow_of_ok [ByteStream ε] {w : RowWriter ε} {row : Array Float32}
    {pixel : Nat → Pixel} (hfault : w.fault = none) (hrow : row.size = w.size.width * 4)
    (hpixel : ∀ i hi, Pixel.ofRow row i hi = pixel i)
    (hheightRow : w.heightRow.size = w.size.width * 2)
    (hcolorRow : w.colorRow.size = w.size.width * 3) {heights colors : ε}
    (hheights : ByteStream.write (heightBytes w.range w.size.width pixel) w.heights
      = (.ok (), heights))
    (hcolors : ByteStream.write (colorBytes w.size.width pixel) w.colors = (.ok (), colors)) :
    w.writeRow row = { w with
      heights := heights
      colors := colors
      heightRow := heightBytes w.range w.size.width pixel
      colorRow := colorBytes w.size.width pixel
      rowsWritten := w.rowsWritten + 1 } := by
  have hn : row.size / 4 = w.size.width := by omega
  simp only [writeRow, hfault, Option.isSome_none, Bool.false_eq_true, if_false, tryRow,
    if_pos hrow, putRow_of_pixels hn hpixel hheightRow hcolorRow, flush, hheights, hcolors]

end RowWriter

end Relief
