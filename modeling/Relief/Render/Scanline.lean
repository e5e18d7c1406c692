import Relief.Expr.Lowering
import Relief.Size
import Relief.Strided

set_option autoImplicit false

/-! # Scanline rendering: a raster row by row

A scanline renderer draws heights and colours together and pushes each finished row to a sink
before it starts the next. In a row every pixel takes four numbers: its height, and its colour
channels scaled to 0 … 255. All rows are drawn into one buffer. -/

namespace Relief

/-- The height of a pixel and its colour channels, scaled to 0 … 255. -/
structure Pixel where
  height : Float32
  red : Float32
  green : Float32
  blue : Float32

namespace Pixel

/-- A channel between 0 and 1 scaled to 0 … 255; what lies outside is clamped, and a NaN stays. -/
def scale (channel : Float32) : Float32 :=
  Binary32.clamp Binary32.zero Binary32.byteTop (channel * Binary32.byteTop)

/-- A NaN ends as a zero byte. -/
theorem toByte_scale_of_isNaN {channel : Float32} (h : channel.isNaN = true) :
    Binary32.toByte (scale channel) = 0 := by
  have hscaled : (channel * Binary32.byteTop).isNaN = true := Binary32.isNaN_mul h _
  rw [scale, Binary32.clamp_of_isNaN hscaled, Binary32.toByte_of_isNaN hscaled]

/-- The pixel of a height and a colour. -/
def ofValues (height : Float32) (color : Color) : Pixel :=
  ⟨height, scale color.red, scale color.green, scale color.blue⟩

/-- The four numbers of a pixel in order. -/
def channels (p : Pixel) : Vector Float32 4 := #v[p.height, p.red, p.green, p.blue]

end Pixel

/-- A renderer of a whole raster, row by row. -/
structure ScanlineRenderer where
  size : Size
  height : Option (Field Float32)
  color : Option (Field Color)

namespace ScanlineRenderer

/-- A renderer without fields. -/
def new (size : Size) : ScanlineRenderer := ⟨size, none, none⟩

/-- Takes an expression as height field; one that is not a number is refused, and the field in
    place stays. -/
def setHeight (r : ScanlineRenderer) (e : Expr) : Except RenderError ScanlineRenderer :=
  match e.compile .float with
  | .ok field => .ok { r with height := some field }
  | .error err => .error err

/-- Takes an expression as colour field; one that is not a vector of three numbers is refused, and
    the field in place stays. -/
def setColor (r : ScanlineRenderer) (e : Expr) : Except RenderError ScanlineRenderer :=
  match e.compile .vec3 with
  | .ok field => .ok { r with color := some field }
  | .error err => .error err

/-- The pixel at column `x` of row `y` of a raster. -/
def pixelAt (height : Field Float32) (color : Field Color) (size : Size) (y x : Nat) : Pixel :=
  let c := Coords.ofPixel x y size.width size.height
  Pixel.ofValues (height c) (color c)

/-- Draws row `y` of a raster over a row buffer, four numbers for each pixel. -/
def drawRow (height : Field Float32) (color : Field Color) (size : Size) (y : Nat)
    (buffer : Array Float32) : Array Float32 :=
  Strided.fill buffer (buffer.size / 4) fun x => (pixelAt height color size y x).channels

/-- A row buffer before the first row. -/
def blankRow (size : Size) : Array Float32 := Array.replicate (size.width * 4) Binary32.zero

/-- Row `y` of a raster as it is pushed: four numbers for each pixel. -/
def row (height : Field Float32) (color : Field Color) (size : Size) (y : Nat) : Array Float32 :=
  drawRow height color size y (blankRow size)

/-- Draws row `y` over the buffer and pushes it to the sink. -/
def pushRow {σ : Type} (height : Field Float32) (color : Field Color) (size : Size)
    (sink : Array Float32 → σ → σ) (y : Nat) : Array Float32 × σ → Array Float32 × σ
  | (buffer, s) =>
    let buffer := drawRow height color size y buffer
    (buffer, sink buffer s)

/-- Renders every row from top to bottom and pushes each to the sink, which acts on a state of the
    caller's. A missing height field is reported before a missing colour field, and then no row is
    pushed. -/
def execute {σ : Type} (r : ScanlineRenderer) (sink : Array Float32 → σ → σ) (s : σ) :
    Except RenderError σ :=
  match r.height, r.color with
  | none, _ => .error (.missingExpr .height)
  | some _, none => .error (.missingExpr .color)
  | some height, some color =>
    .ok (Nat.fold r.size.height (fun y _ => pushRow height color r.size sink y)
      (blankRow r.size, s)).2

end ScanlineRenderer

end Relief
