import Relief.Error

set_option autoImplicit false

/-! # Image streams: PNG files that are written row by row

A writer of images needs little of the streams it writes to (`ByteStream`): they take bytes, and
both taking bytes and finishing the image may fail.

An `ImageStream` is a stream into a PNG file. It creates its file at once and then takes bytes as
they come; the file is complete when the stream is finished and has taken a whole frame of bytes.
The image is the first frame: bytes past it belong to further frames, which the file of a still
image does not show, but a frame that has been begun has to be completed before the stream can be
finished without error. -/

namespace Relief

/-- A stream that takes the bytes of an image. -/
class ByteStream (ε : Type) where
  /-- Takes more bytes. There is a stream afterwards also when this fails. -/
  write : Array UInt8 → ε → Except Error Unit × ε
  /-- The failure of finishing now, if it fails. -/
  finishError? : ε → Option Error

/-- A file being written. -/
structure ImageStream where
  place : FilePlace
  size : Size
  /-- The number of bytes a pixel takes. -/
  pixelBytes : Nat
  bytes : Array UInt8

namespace ImageStream

/-- Creates, or empties, the file at a path and starts an image in it. The sides of the image are
    32 bits wide, and neither may be zero: such an image is refused after its file was created. -/
def create (fs : Files) (path : String) (size : Size) (pixelBytes : Nat) :
    Except Error ImageStream × Files :=
  match fs.create? path with
  | .error err => (.error (.file err), fs)
  | .ok place =>
    let fs := fs.put place .partialImage
    let size := size.wrapped
    if size.width = 0 then (.error (.png .zeroWidth), fs)
    else if size.height = 0 then (.error (.png .zeroHeight), fs)
    else (.ok ⟨place, size, pixelBytes, #[]⟩, fs)

/-- Takes more bytes. -/
def push (s : ImageStream) (bytes : Array UInt8) : ImageStream :=
  { s with bytes := s.bytes ++ bytes }

/-- The number of bytes of a frame. -/
def frameBytes (s : ImageStream) : Nat := s.size.area * s.pixelBytes

/-- Whether the first frame is complete. -/
def isComplete (s : ImageStream) : Bool := decide (s.frameBytes ≤ s.bytes.size)

/-- The number of bytes until the frame that was begun last is complete. -/
def missingBytes (s : ImageStream) : Nat :=
  if s.bytes.size = 0 then s.frameBytes
  else (s.frameBytes - s.bytes.size % s.frameBytes) % s.frameBytes

/-- The failure of finishing now, if it fails. -/
def finishError? (s : ImageStream) : Option Error :=
  if s.missingBytes = 0 then none else some (.png (.unfinished s.missingBytes))

/-- Leaves the file as it is when the stream is finished or given up. -/
def close (s : ImageStream) (pixels : Array UInt8 → Pixels) (fs : Files) : Files :=
  if s.isComplete then
    fs.put s.place (.image ⟨s.size, pixels (s.bytes.extract 0 s.frameBytes)⟩)
  else fs.put s.place .partialImage

instance : ByteStream ImageStream where
  write bytes s := (.ok (), s.push bytes)
  finishError? := finishError?

end ImageStream

end Relief
