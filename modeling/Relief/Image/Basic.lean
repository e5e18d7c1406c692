import Relief.Size

set_option autoImplicit false

/-! # Images: decoded pixels

Height maps are grey with sixteen bits a pixel, colour maps have three bytes a pixel. An image here
is what its file decodes to: the pixels row by row, and nothing about compression. -/

namespace Relief

/-- The samples of an image, row by row; a colour takes three bytes in the order red, green,
    blue. -/
inductive Pixels where
  | gray16 (samples : Array UInt16)
  | rgb8 (bytes : Array UInt8)
deriving DecidableEq

/-- A sample of sixteen bits as two bytes, the higher one first. -/
def bigEndian (n : UInt16) : Vector UInt8 2 := #v[(n >>> 8).toUInt8, n.toUInt8]

/-- The sample that two bytes are. -/
def ofBigEndian (high low : UInt8) : UInt16 := high.toUInt16 <<< 8 ||| low.toUInt16

/-- Grey pixels from their bytes, two for each pixel; a single one at the end is left out. -/
def Pixels.ofGrayBytes (bytes : Array UInt8) : Pixels :=
  .gray16 (Array.ofFn (n := bytes.size / 2) fun i =>
    ofBigEndian bytes[2 * i.val] bytes[2 * i.val + 1])

/-- A decoded image. -/
structure Image where
  size : Size
  pixels : Pixels
deriving DecidableEq

end Relief
