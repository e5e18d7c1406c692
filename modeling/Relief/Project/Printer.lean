import Relief.Project.Basic

set_option autoImplicit false

/-! # Writing projects

A project is written as a document with every setting in it, in declaration order, indented by two
blanks a level. A bound that is no finite number has no form in a document and is written as
`null`. -/

namespace Relief

namespace Document

/-- The escape of a character in a string. Only quotes, backslashes and control characters have
    one. -/
def escapeChar (c : Char) : List Char :=
  match c with
  | '"' => ['\\', '"']
  | '\\' => ['\\', '\\']
  | '\x08' => ['\\', 'b']
  | '\x0c' => ['\\', 'f']
  | '\n' => ['\\', 'n']
  | '\r' => ['\\', 'r']
  | '\t' => ['\\', 't']
  | c =>
    if c < ' ' then
      '\\' :: 'u' :: '0' :: '0' :: Nat.digitChar (c.toNat / 16) :: [Nat.digitChar (c.toNat % 16)]
    else [c]

/-- A string in a document. -/
def string (text : String) : List Char :=
  '"' :: text.toList.flatMap escapeChar ++ ['"']

/-- A whole number in a document. -/
def whole (n : Nat) : List Char := (toString n).toList

/-- A number in a document. -/
def number (x : Float32) : List Char :=
  if x.isFinite then Decimal.Layout.document.spell32 x else "null".toList

/-- A new line at a depth of nesting. -/
def newline (depth : Nat) : List Char := '\n' :: List.replicate (2 * depth) ' '

/-- The members of an object, each on a line of its own. -/
def members (depth : Nat) : List (String × List Char) → List Char
  | [] => []
  | [(key, value)] => newline depth ++ string key ++ ": ".toList ++ value
  | (key, value) :: rest =>
    newline depth ++ string key ++ ": ".toList ++ value ++ ',' :: members depth rest

/-- An object whose members stand at the given depth. -/
def object (depth : Nat) (fields : List (String × List Char)) : List Char :=
  '\x7b' :: members depth fields ++ newline (depth - 1) ++ ['\x7d']

end Document

namespace Project

open Document

/-- The characters of a project's document. -/
def spell (p : Project) : List Char :=
  object 1
    [("resolution", object 2 [("width", whole p.size.width), ("height", whole p.size.height)]),
      ("height_range", object 2 [("min", number p.range.min), ("max", number p.range.max)]),
      ("height", string p.height.name),
      ("color", string p.color.name),
      ("outputs",
        object 2 [("height", string p.outputs.height), ("color", string p.outputs.color)]),
      ("sampling", string p.sampling.name)]

/-- A project's document. -/
def toText (p : Project) : String := String.ofList p.spell

end Project

end Relief
