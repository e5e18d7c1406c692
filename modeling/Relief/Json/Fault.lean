import Relief.Decimal.Layout
import Relief.Text.Quoted

set_option autoImplicit false

/-! # Faults of a JSON document

A document is read once from left to right, and the first problem met is its fault. A fault of
syntax means that the text is no JSON, an early end that it might have become JSON, and a fault of
data that a value is not what its place asks for. -/

namespace Relief.Json

/-- The three sorts of faults. -/
inductive Category where
  | syntaxFault
  | earlyEnd
  | data
deriving DecidableEq, Repr

/-- The name of a sort. -/
def Category.name : Category → String
  | syntaxFault => "syntax"
  | earlyEnd => "eof"
  | data => "data"

/-- What was found where something else was expected. -/
inductive Found where
  | null
  | boolean (value : Bool)
  | integer (value : Int)
  | number (value : Float)
  | string (value : String)
  | sequence
  | map

/-- A found value in words. -/
def Found.describe : Found → String
  | null => "null"
  | boolean true => "boolean \x60true\x60"
  | boolean false => "boolean \x60false\x60"
  | integer value => "integer \x60" ++ toString value ++ "\x60"
  | number value =>
    "floating point \x60" ++ String.ofList (Decimal.Layout.complaint.spell64 value) ++ "\x60"
  | string value => "string " ++ Text.quoted value
  | sequence => "sequence"
  | map => "map"

/-- The faults of a document. -/
inductive Fault where
  | endInValue
  | endInString
  | endInList
  | endInObject
  | expectedValue
  | expectedIdent
  | expectedColon
  | expectedListCommaOrEnd
  | expectedObjectCommaOrEnd
  | trailingComma
  | trailingCharacters
  | keyMustBeString
  | controlCharacter
  | invalidEscape
  | loneSurrogate
  | endOfHexEscape
  | invalidNumber
  | numberOutOfRange
  | invalidType (found : Found) (expected : String)
  | invalidValue (found : Found) (expected : String)
  | unknownVariant (name : String) (known : List String)
  | duplicateField (name : String)

namespace Fault

/-- The sort of a fault. -/
def category : Fault → Category
  | endInValue | endInString | endInList | endInObject => .earlyEnd
  | invalidType _ _ | invalidValue _ _ | unknownVariant _ _ | duplicateField _ => .data
  | _ => .syntaxFault

/-- A name between grave accents. -/
def marked (name : String) : String := "\x60" ++ name ++ "\x60"

/-- The names that a variant could have had: two are joined by a word, more are listed. -/
def alternatives : List String → String
  | [] => "there are no variants"
  | [a] => "expected " ++ marked a
  | [a, b] => "expected " ++ marked a ++ " or " ++ marked b
  | names => "expected one of " ++ String.intercalate ", " (names.map marked)

/-- The message of a fault. -/
def message : Fault → String
  | endInValue => "EOF while parsing a value"
  | endInString => "EOF while parsing a string"
  | endInList => "EOF while parsing a list"
  | endInObject => "EOF while parsing an object"
  | expectedValue => "expected value"
  | expectedIdent => "expected ident"
  | expectedColon => "expected \x60:\x60"
  | expectedListCommaOrEnd => "expected \x60,\x60 or \x60]\x60"
  | expectedObjectCommaOrEnd => "expected \x60,\x60 or \x60\x7d\x60"
  | trailingComma => "trailing comma"
  | trailingCharacters => "trailing characters"
  | keyMustBeString => "key must be a string"
  | controlCharacter => "control character (\\u0000-\\u001F) found while parsing a string"
  | invalidEscape => "invalid escape"
  | loneSurrogate => "lone leading surrogate in hex escape"
  | endOfHexEscape => "unexpected end of hex escape"
  | invalidNumber => "invalid number"
  | numberOutOfRange => "number out of range"
  | invalidType found expected => "invalid type: " ++ found.describe ++ ", expected " ++ expected
  | invalidValue found expected => "invalid value: " ++ found.describe ++ ", expected " ++ expected
  | unknownVariant name known => "unknown variant " ++ marked name ++ ", " ++ alternatives known
  | duplicateField name => "duplicate field " ++ marked name

end Fault

end Relief.Json
