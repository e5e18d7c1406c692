import Relief.Text.Case

set_option autoImplicit false

/-! # Image formats: what a file name promises

The format of an image file is told from the extension of its name, without regard to the case of
ASCII letters. Many formats are known by name; only PNG can be written. -/

namespace Relief

/-- The image formats known by name. -/
inductive ImageFormat where
  | png
  | jpeg
  | gif
  | webP
  | pnm
  | tiff
  | tga
  | dds
  | bmp
  | ico
  | hdr
  | openExr
  | farbfeld
  | avif
  | qoi
deriving DecidableEq, Repr

namespace ImageFormat

/-- The name of a format in messages. -/
def name : ImageFormat → String
  | png => "Png"
  | jpeg => "Jpeg"
  | gif => "Gif"
  | webP => "WebP"
  | pnm => "Pnm"
  | tiff => "Tiff"
  | tga => "Tga"
  | dds => "Dds"
  | bmp => "Bmp"
  | ico => "Ico"
  | hdr => "Hdr"
  | openExr => "OpenExr"
  | farbfeld => "Farbfeld"
  | avif => "Avif"
  | qoi => "Qoi"

/-- The extensions in lower case, each with its format. -/
def extensions : List (String × ImageFormat) :=
  [("avif", avif), ("jpg", jpeg), ("jpeg", jpeg), ("jfif", jpeg), ("png", png), ("apng", png),
    ("gif", gif), ("webp", webP), ("tif", tiff), ("tiff", tiff), ("tga", tga), ("dds", dds),
    ("bmp", bmp), ("ico", ico), ("hdr", hdr), ("exr", openExr), ("pbm", pnm), ("pam", pnm),
    ("ppm", pnm), ("pgm", pnm), ("pnm", pnm), ("ff", farbfeld), ("qoi", qoi)]

/-- The format of an extension. -/
def ofExtension? (extension : String) : Option ImageFormat :=
  (extensions.find? fun entry => Text.sameLetters entry.1 extension).map Prod.snd

end ImageFormat

end Relief
