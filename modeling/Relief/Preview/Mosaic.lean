import Relief.Tile.Basic
import Relief.Image.Stream

set_option autoImplicit false

/-! # Mosaics: tiles put together to an image

A mosaic is a sixteen-bit height image into which tiles are copied as they arrive. The sides of an
image are 32 bits wide, and so are the coordinates of its pixels: both are taken modulo `2 ^ 32`,
and a sample whose coordinates then lie outside the image ends its row or the tile. -/

namespace Relief

/-- A height image put together from tiles. -/
structure Mosaic where
  size : Size
  range : HeightRange
  /-- The samples row by row. -/
  pixels : Array UInt16
  /-- The number of tiles that have arrived. -/
  tiles : Nat

namespace Mosaic

/-- A black mosaic. -/
def new (size : Size) (range : HeightRange) : Mosaic :=
  let size := size.wrapped
  ⟨size, range, Array.replicate size.area 0, 0⟩

/-- A coordinate as an image sees it. -/
def wrap (n : Nat) : Nat := n % UInt32.size

/-- The pixel at a place of the image. -/
def pixel? (m : Mosaic) (x y : Nat) : Option UInt16 :=
  if x < m.size.width ∧ y < m.size.height then m.pixels[y * m.size.width + x]? else none

/-- The pixels of the upper left corner of the image, row by row, if it is as large. -/
def region? (m : Mosaic) (corner : Size) : Option (Array UInt16) :=
  (Array.range corner.area).mapM fun i => m.pixel? (i % corner.width) (i / corner.width)

/-! ## Copying a tile -/

/-- Copies the heights of a tile's row from column `x` on into row `py` of an image; the first one
    that lies outside ends the row. -/
def copyRow (size : Size) (range : HeightRange) (offsetX py : Nat) :
    (x : Nat) → List Sample → Array UInt16 → Array UInt16
  | _, [], pixels => pixels
  | x, sample :: rest, pixels =>
    let px := wrap (offsetX + x)
    if size.width ≤ px then pixels
    else
      copyRow size range offsetX py (x + 1) rest
        (pixels.setIfInBounds (py * size.width + px) (range.quantize sample.height))

/-- Copies `rows` rows of a tile from row `y` on; the first one that lies outside ends the tile. -/
def copyRows (size : Size) (range : HeightRange) (t : Tile) :
    (rows y : Nat) → Array UInt16 → Array UInt16
  | 0, _, pixels => pixels
  | rows + 1, y, pixels =>
    let py := wrap (t.offsetY + y)
    if size.height ≤ py then pixels
    else
      copyRows size range t rows (y + 1)
        (copyRow size range t.offsetX py 0 ((t.line? y).getD #[]).toList pixels)

/-- Takes a tile. -/
def add (m : Mosaic) (t : Tile) : Mosaic :=
  { m with pixels := copyRows m.size m.range t t.height 0 m.pixels, tiles := m.tiles + 1 }

/-! ## Saving -/

/-- The image of a mosaic. -/
def image (m : Mosaic) : Image := ⟨m.size, .gray16 m.pixels⟩

/-- Saves the image at a path whose extension says that it is a PNG file. The extension is looked
    at before the file is created, the size of the image afterwards. -/
def save (m : Mosaic) (fs : Files) (path : String) : Except Error Unit × Files :=
  match Path.extension? path with
  | none => (.error (.image .noExtension), fs)
  | some extension =>
    match ImageFormat.ofExtension? extension with
    | none => (.error (.image (.unknownExtension extension)), fs)
    | some format =>
      match fs.create? path with
      | .error err => (.error (.image (.file err)), fs)
      | .ok place =>
        if format ≠ .png then (.error (.image (.unsupported format)), fs.put place .partialImage)
        else if m.size.width = 0 then
          (.error (.image (.encoding .zeroWidth)), fs.put place .partialImage)
        else if m.size.height = 0 then
          (.error (.image (.encoding .zeroHeight)), fs.put place .partialImage)
        else (.ok (), fs.put place (.image m.image))

end Mosaic

end Relief
