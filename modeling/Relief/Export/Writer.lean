import Relief.Image.Stream
import Relief.Render.Scanline

set_option autoImplicit false

/-! # Map writing: a height map and a colour map side by side

A row writer takes rows as a scanline renderer pushes them and writes two images: the heights as
grey of sixteen bits, scaled by a height range, and the colours as three bytes. The bytes of a row
are put together in two buffers that every row uses again. Taking a row cannot fail, so the first
failure is remembered, every later row is dropped, and finishing reports it. -/

namespace Relief

/-- The `i`-th pixel of a row, four numbers from the row. -/
def Pixel.ofRow (row : Array Float32) (i : Nat) (h : i < row.size / 4) : Pixel :=
  ⟨row[i * 4], row[i * 4 + 1], row[i * 4 + 2], row[i * 4 + 3]⟩

/-- The colour bytes of a pixel whose channels are scaled already. -/
def Pixel.colorBytes (p : Pixel) : Vector UInt8 3 :=
  #v[Binary32.toByte p.red, Binary32.toByte p.green, Binary32.toByte p.blue]

/-- The two bytes of a pixel in the height map. -/
def Pixel.heightBytes (range : HeightRange) (p : Pixel) : Vector UInt8 2 :=
  bigEndian (range.quantize p.height)

/-- A writer of a height map and a colour map into two streams. -/
structure RowWriter (ε : Type) where
  size : Size
  range : HeightRange
  heights : ε
  colors : ε
  /-- The bytes of the last row, two for each pixel in the height map. -/
  heightRow : Array UInt8
  /-- The bytes of the last row, three for each pixel in the colour map. -/
  colorRow : Array UInt8
  rowsWritten : Nat
  /-- The failure of the first row that was refused. -/
  fault : Option Error

namespace RowWriter

variable {ε : Type}

/-- A writer before the first row. -/
def start (size : Size) (heights colors : ε) : RowWriter ε where
  size := size
  range := .unit
  heights := heights
  colors := colors
  heightRow := Array.replicate (size.width * 2) 0
  colorRow := Array.replicate (size.width * 3) 0
  rowsWritten := 0
  fault := none

/-- Sets the heights that fill the samples of the rows from here on; an invalid range changes
    nothing. -/
def setRange (w : RowWriter ε) (min max : Float32) : Except Error (RowWriter ε) :=
  match HeightRange.ofBounds min max with
  | .ok range => .ok { w with range := range }
  | .error err => .error err

theorem setRange_of_validate {range : HeightRange} (hrange : range.validate = .ok ())
    (w : RowWriter ε) : w.setRange range.min range.max = .ok { w with range := range } := by
  simp only [setRange, HeightRange.ofBounds, hrange]

/-- Puts the bytes of the `i`-th pixel into both buffers. -/
def putPixel (w : RowWriter ε) (i : Nat) (p : Pixel) : RowWriter ε :=
  { w with
    heightRow := Strided.put w.heightRow i (p.heightBytes w.range)
    colorRow := Strided.put w.colorRow i p.colorBytes }

/-- Puts the bytes of a row into both buffers, pixel by pixel; an incomplete pixel at the end is
    left out. -/
def putRow (w : RowWriter ε) (row : Array Float32) : RowWriter ε :=
  Nat.fold (row.size / 4) (fun i hi w => w.putPixel i (Pixel.ofRow row i hi)) w

variable [ByteStream ε]

/-- Writes both buffers, the height map first; a failure there leaves the colour map alone. -/
def flush (w : RowWriter ε) : Except Error Unit × RowWriter ε :=
  match ByteStream.write w.heightRow w.heights with
  | (.error err, heights) => (.error err, { w with heights := heights })
  | (.ok (), heights) =>
    match ByteStream.write w.colorRow w.colors with
    | (.error err, colors) => (.error err, { w with heights := heights, colors := colors })
    | (.ok (), colors) =>
      (.ok (), { w with heights := heights, colors := colors, rowsWritten := w.rowsWritten + 1 })

/-- Writes a row, which must have the right length. -/
def tryRow (w : RowWriter ε) (row : Array Float32) : Except Error Unit × RowWriter ε :=
  if row.size = w.size.width * 4 then (w.putRow row).flush
  else (.error (.rowLength (w.size.width * 4) row.size), w)

/-- Takes a row, unless a row has been refused before. -/
def writeRow (w : RowWriter ε) (row : Array Float32) : RowWriter ε :=
  if w.fault.isSome then w
  else
    match w.tryRow row with
    | (.ok (), w) => w
    | (.error err, w) => { w with fault := some err }

/-- Renders the rows of a height and a colour expression into a writer. -/
def drawRows (w : RowWriter ε) (size : Size) (height color : Expr) :
    Except RenderError (RowWriter ε) := do
  let r ← (ScanlineRenderer.new size).setHeight height
  let r ← r.setColor color
  r.execute (fun row w => w.writeRow row) w

/-- What finishing reports: the first failure there was. -/
def result (w : RowWriter ε) : Except Error Unit :=
  match w.fault, ByteStream.finishError? w.heights, ByteStream.finishError? w.colors with
  | some err, _, _ => .error err
  | none, some err, _ => .error err
  | none, none, some err => .error err
  | none, none, none => .ok ()

/-! ## Into files -/

/-- Leaves both files as they are, the height map first. -/
def close (w : RowWriter ImageStream) (fs : Files) : Files :=
  w.colors.close .rgb8 (w.heights.close .ofGrayBytes fs)

/-- Completes both files and reports the first failure there was. -/
def finish (w : RowWriter ImageStream) (fs : Files) : Except Error Unit × Files :=
  (w.result, w.close fs)

end RowWriter

/-- A writer into two PNG files. -/
abbrev MapWriter := RowWriter ImageStream

/-- Creates both files, the height map first. -/
def MapWriter.create (fs : Files) (size : Size) (heightPath colorPath : String) :
    Except Error MapWriter × Files :=
  match ImageStream.create fs heightPath size 2 with
  | (.error err, fs) => (.error err, fs)
  | (.ok heights, fs) =>
    match ImageStream.create fs colorPath size 3 with
    | (.error err, fs) => (.error err, fs)
    | (.ok colors, fs) => (.ok (RowWriter.start size heights colors), fs)

end Relief
