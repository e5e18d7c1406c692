import Relief.Render.Error
import Relief.Files
import Relief.HeightRange
import Relief.Image.Format
import Relief.Json.Fault

set_option autoImplicit false

/-! # Errors: everything that can go wrong outside the renderers -/

namespace Relief

/-- How the encoding of a PNG file fails. -/
inductive PngError where
  | zeroWidth
  | zeroHeight
  /-- The file was finished before all of its bytes were there. -/
  | unfinished (missing : Nat)
deriving DecidableEq, Repr

/-- The message of a failed encoding. -/
def PngError.message : PngError → String
  | zeroWidth => "Zero width not allowed"
  | zeroHeight => "Zero height not allowed"
  | unfinished missing => "there are still " ++ toString missing ++ " bytes to be written"

/-- How saving an image fails. -/
inductive ImageError where
  | noExtension
  | unknownExtension (extension : String)
  | unsupported (format : ImageFormat)
  | encoding (err : PngError)
  | file (err : FileError)
deriving DecidableEq, Repr

/-- The message of a failed save. -/
def ImageError.message : ImageError → String
  | noExtension => "The image format could not be determined"
  | unknownExtension extension =>
    "The file extension \x60." ++ Text.quoted extension ++
      "\x60 was not recognized as an image format"
  | unsupported format => "The image format \x60" ++ format.name ++ "\x60 is not supported"
  | encoding err => err.message
  | file err => err.message

/-- The failures of loading, exporting and previewing a project. -/
inductive Error where
  | render (err : RenderError)
  | file (err : FileError)
  | png (err : PngError)
  | image (err : ImageError)
  | document (fault : Json.Fault)
  | invalidRange (min max : Float32)
  | rowLength (expected actual : Nat)
  | cancelled (rendered total : Nat)

/-- A number in a message. -/
def numberText (layout : Decimal.Layout) (x : Float32) : String := String.ofList (layout.spell32 x)

/-- The message of a failure. -/
def Error.message : Error → String
  | .render err => err.message
  | .file err => "io error: " ++ err.message
  | .png err => "png encoding failed: " ++ err.message
  | .image err => "image error: " ++ err.message
  | .document fault => "invalid project file: " ++ fault.message
  | .invalidRange min max =>
    "invalid height range: min " ++ numberText .message min ++ " must be below max " ++
      numberText .message max
  | .rowLength expected actual =>
    "row length mismatch: expected " ++ toString expected ++ " values, got " ++ toString actual
  | .cancelled rendered total =>
    "render cancelled after " ++ toString rendered ++ " of " ++ toString total ++ " tiles"

/-- Fails unless a height range is valid. -/
def HeightRange.validate (r : HeightRange) : Except Error Unit :=
  if r.isValid then .ok () else .error (.invalidRange r.min r.max)

theorem HeightRange.validate_unit : unit.validate = .ok () := by
  rw [validate, if_pos (by decide)]

/-- A valid height range with the given bounds. -/
def HeightRange.ofBounds (min max : Float32) : Except Error HeightRange :=
  let r : HeightRange := ⟨min, max⟩
  match r.validate with
  | .ok () => .ok r
  | .error err => .error err

end Relief
