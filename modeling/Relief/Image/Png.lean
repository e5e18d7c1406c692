import Relief.Image.Basic

set_option autoImplicit false

/-! # PNG files: an image as bytes

A PNG file is a signature and a sequence of chunks, each with its length before it and a checksum
after it. The pixels stand in one data chunk, row by row with a filter byte in front of each row,
as a zlib stream. The stream keeps its bytes in stored blocks: nothing is compressed, and every
reader of the format reads it. -/

namespace Relief.Png

/-! ## Checksums -/

/-- One bit of the remainder that a chunk's checksum is. -/
def crcShift (c : UInt32) : UInt32 :=
  if c &&& 1 == 1 then (c >>> 1) ^^^ 0xEDB88320 else c >>> 1

/-- One byte of it. -/
def crcByte (c : UInt32) (b : UInt8) : UInt32 := Nat.repeat crcShift 8 (c ^^^ b.toUInt32)

/-- The checksum of a chunk. -/
def crc32 (bytes : ByteArray) : UInt32 :=
  let start : UInt32 := 0xFFFFFFFF
  bytes.foldl crcByte start ^^^ 0xFFFFFFFF

/-- The two running sums that the checksum of a zlib stream consists of. -/
structure Adler where
  low : UInt32
  high : UInt32

/-- The modulus of the sums. -/
def Adler.modulus : UInt32 := 65521

/-- Adds a byte to the sums. -/
def Adler.add (s : Adler) (b : UInt8) : Adler :=
  let low := (s.low + b.toUInt32) % modulus
  ⟨low, (s.high + low) % modulus⟩

/-- The checksum of a zlib stream. -/
def adler32 (bytes : ByteArray) : UInt32 :=
  let start : Adler := ⟨1, 0⟩
  let sums := bytes.foldl Adler.add start
  sums.high <<< 16 ||| sums.low

/-! ## Parts of a file -/

/-- A word of 32 bits, the highest byte first. -/
def word (n : UInt32) : ByteArray :=
  ⟨#[(n >>> 24).toUInt8, (n >>> 16).toUInt8, (n >>> 8).toUInt8, n.toUInt8]⟩

/-- A chunk: length, kind, content, and the checksum of kind and content. -/
def chunk (kind : String) (content : ByteArray) : ByteArray :=
  let body := kind.toUTF8 ++ content
  word (UInt32.ofNat content.size) ++ body ++ word (crc32 body)

/-- The most bytes that a stored block holds. -/
def blockLimit : Nat := 65535

/-- A stored block: whether it is the last one, its length, the length's complement, its bytes. -/
def storedBlock (last : Bool) (content : ByteArray) : ByteArray :=
  let length := UInt16.ofNat content.size
  let complement := length ^^^ 0xFFFF
  ⟨#[if last then 1 else 0, length.toUInt8, (length >>> 8).toUInt8, complement.toUInt8,
    (complement >>> 8).toUInt8]⟩ ++ content

/-- A zlib stream of stored blocks. -/
def zlib (content : ByteArray) : ByteArray :=
  let full := content.size / blockLimit
  let blocks := (List.range (full + 1)).foldl (fun bytes i =>
    bytes ++ storedBlock (i == full)
      (content.extract (i * blockLimit) ((i + 1) * blockLimit))) ⟨#[0x78, 0x01]⟩
  blocks ++ word (adler32 content)

/-! ## Images -/

/-- The pixels as bytes, a sample of sixteen bits with its high byte first. -/
def pixelBytes : Pixels → ByteArray
  | .gray16 samples =>
    samples.foldl (fun (bytes : ByteArray) (n : UInt16) =>
      (bytes.push (n >>> 8).toUInt8).push n.toUInt8) ByteArray.empty
  | .rgb8 bytes => ⟨bytes⟩

/-- The rows of an image, each after a zero that says that it is not filtered. -/
def rows (rowBytes height : Nat) (pixels : ByteArray) : ByteArray :=
  (List.range height).foldl (fun bytes y =>
    bytes.push 0 ++ pixels.extract (y * rowBytes) ((y + 1) * rowBytes)) ByteArray.empty

/-- The bits of a sample, the format's number for the colours, and the bytes of a pixel. -/
def layout : Pixels → UInt8 × UInt8 × Nat
  | .gray16 _ => (16, 0, 2)
  | .rgb8 _ => (8, 2, 3)

/-- The bytes that every file begins with. -/
def signature : ByteArray := ⟨#[0x89, 0x50, 0x4E, 0x47, 0x0D, 0x0A, 0x1A, 0x0A]⟩

/-- The file of an image. -/
def encode (image : Image) : ByteArray :=
  let (depth, colors, pixelSize) := layout image.pixels
  let header := word (UInt32.ofNat image.size.width) ++ word (UInt32.ofNat image.size.height) ++
    ⟨#[depth, colors, 0, 0, 0]⟩
  let data := rows (image.size.width * pixelSize) image.size.height (pixelBytes image.pixels)
  signature ++ chunk "IHDR" header ++ chunk "IDAT" (zlib data) ++ chunk "IEND" ByteArray.empty

end Relief.Png
