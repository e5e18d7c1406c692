import Relief.Render.Scanline

set_option autoImplicit false

/-! # Canvas: the whole raster at once

A canvas holds the height map and the surface of a raster for an editor that redraws after every
change. Other than the renderers it never keeps an old field: an expression that is missing or does
not lower is reported and replaced by zero, so the canvas always shows the latest edit. -/

namespace Relief

/-- A colour of three bytes. -/
structure Rgb where
  red : UInt8
  green : UInt8
  blue : UInt8
deriving DecidableEq, Repr

namespace Rgb

/-- The colour an empty surface holds. -/
def black : Rgb := ⟨0, 0, 0⟩

/-- A colour with channels between 0 and 1, scaled, clamped and truncated to bytes. -/
def ofColor (color : Color) : Rgb :=
  ⟨Binary32.toByte (Pixel.scale color.red), Binary32.toByte (Pixel.scale color.green),
    Binary32.toByte (Pixel.scale color.blue)⟩

/-- The three bytes in order. -/
def toList (c : Rgb) : List UInt8 := [c.red, c.green, c.blue]

end Rgb

/-- What an observer does to the shared state on seeing a height map of the given size, from which
    it returns. -/
abbrev MapObserver (σ : Type) := Array Float32 → Size → σ → σ

/-- The height map and the surface of a raster, with the fields they are computed from. -/
structure Canvas (σ : Type) where
  size : Size
  heights : Array Float32
  surface : Array Rgb
  heightField : Field Float32
  colorField : Field Color
  observers : List (MapObserver σ)

namespace Canvas

variable {σ : Type}

/-- The zero height everywhere. -/
def flat : Field Float32 := Field.constant Binary32.zero

/-- Black everywhere. -/
def dark : Field Color := Field.constant #v[Binary32.zero, Binary32.zero, Binary32.zero]

/-- An empty canvas. -/
def new : Canvas σ where
  size := ⟨0, 0⟩
  heights := #[]
  surface := #[]
  heightField := flat
  colorField := dark
  observers := []

/-- Registers an observer of height maps after the ones already there. -/
def observe (c : Canvas σ) (observer : MapObserver σ) : Canvas σ :=
  { c with observers := c.observers ++ [observer] }

/-- Keeps the first `n` values of an array, filled up with a default where it is shorter. -/
def fit {α : Type} (n : Nat) (default : α) (values : Array α) : Array α :=
  values.extract 0 n ++ Array.replicate (n - values.size) default

/-- Changes the raster. Old values stay at their place in the row-by-row order. -/
def resize (c : Canvas σ) (size : Size) : Canvas σ :=
  { c with
    size := size
    heights := fit size.area Binary32.zero c.heights
    surface := fit size.area Rgb.black c.surface }

/-- Takes an expression as height field. A missing one and one that is not a number make the
    canvas flat, and are reported. -/
def setHeight (c : Canvas σ) (e : Option Expr) : Canvas σ × Except RenderError Unit :=
  match e with
  | none => ({ c with heightField := flat }, .error (.missingExpr .height))
  | some e =>
    match e.compile .float with
    | .ok field => ({ c with heightField := field }, .ok ())
    | .error err => ({ c with heightField := flat }, .error err)

/-- Takes an expression as colour field. A missing one and one that is not a vector of three
    numbers make the canvas black, and are reported. -/
def setColor (c : Canvas σ) (e : Option Expr) : Canvas σ × Except RenderError Unit :=
  match e with
  | none => ({ c with colorField := dark }, .error (.missingExpr .color))
  | some e =>
    match e.compile .vec3 with
    | .ok field => ({ c with colorField := field }, .ok ())
    | .error err => ({ c with colorField := dark }, .error err)

/-- The coordinates of the `i`-th value in row-by-row order. -/
def coords (size : Size) (i : Nat) : Coords :=
  Coords.ofPixel (i % size.width) (i / size.width) size.width size.height

/-- Computes every height, then shows the map to every observer in turn. -/
def computeHeights (c : Canvas σ) (s : σ) : Canvas σ × σ :=
  let heights := c.heights.mapIdx fun i _ => c.heightField (coords c.size i)
  ({ c with heights := heights },
    c.observers.foldl (fun s observer => observer heights c.size s) s)

/-- Computes the colour of every pixel. -/
def computeSurface (c : Canvas σ) : Canvas σ :=
  { c with surface := c.surface.mapIdx fun i _ => Rgb.ofColor (c.colorField (coords c.size i)) }

/-- Copies the height map into a buffer, which must be as long. -/
def readHeights (c : Canvas σ) (buffer : Array Float32) :
    Except RenderError (Array Float32) :=
  if buffer.size = c.heights.size then .ok c.heights
  else .error (.bufferSize c.heights.size buffer.size)

/-! ## What these operations do -/

@[simp]
theorem size_fit {α : Type} (n : Nat) (default : α) (values : Array α) :
    (fit n default values).size = n := by
  rw [fit, Array.size_append, Array.size_extract, Array.size_replicate]
  omega

/-- An expression that is a number becomes the height field, and nothing else changes. -/
theorem setHeight_of_compile {e : Expr} {field : Field Float32} (he : e.compile .float = .ok field)
    (c : Canvas σ) : c.setHeight (some e) = ({ c with heightField := field }, .ok ()) := by
  simp only [setHeight, he]

/-- The computed map shows the field at every pixel, if the map is as large as the raster. -/
theorem getElem?_computeHeights {c : Canvas σ} (hsize : c.heights.size = c.size.area) (s : σ)
    {x y : Nat} (hx : x < c.size.width) (hy : y < c.size.height) :
    (c.computeHeights s).1.heights[y * c.size.width + x]?
      = some (c.heightField (Coords.ofPixel x y c.size.width c.size.height)) := by
  have hplace : y * c.size.width + x < c.heights.size := hsize ▸ rowMajor_lt hx hy
  obtain ⟨hcolumn, hrow⟩ := (rowMajor_iff hx).2 (rfl : y * c.size.width + x = _)
  simp only [computeHeights, Array.getElem?_mapIdx, Array.getElem?_eq_getElem hplace,
    Option.map_some, coords, hcolumn, hrow]

end Canvas

end Relief
