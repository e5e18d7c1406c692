import Relief.Decimal.Layout

set_option autoImplicit false

/-! # Reading decimals: a number from its text

A number on a command line is a decimal with an optional sign, fraction and exponent, or one of the
words `nan`, `inf` and `infinity` in any case. It is rounded once, from the exact decimal to the
nearest number of single precision. -/

namespace Relief.Decimal

/-- Whether a character is a decimal digit. -/
def isDigit (c : Char) : Bool := '0' ≤ c && c ≤ '9'

/-- The natural number of a list of digits. -/
def valueOf (digits : List Char) : Nat :=
  digits.foldl (fun n c => n * 10 + (c.toNat - '0'.toNat)) 0

/-- A sign at the front, and whether it is a minus sign. -/
def takeSign : List Char → Bool × List Char
  | '-' :: rest => (true, rest)
  | '+' :: rest => (false, rest)
  | cs => (false, cs)

/-- The exponent after its letter, which must have a digit. -/
def exponent? (cs : List Char) : Option Int :=
  let (negative, digits) := takeSign cs
  if digits.isEmpty || !digits.all isDigit then none
  else some (if negative then -valueOf digits else valueOf digits)

/-- An unsigned decimal: digits with an optional point among or around them, at least one digit,
    and an optional exponent. -/
def unsigned? (cs : List Char) : Option Decimal :=
  let whole := cs.takeWhile isDigit
  let rest := cs.dropWhile isDigit
  let (fraction, rest) : List Char × List Char :=
    match rest with
    | '.' :: after => (after.takeWhile isDigit, after.dropWhile isDigit)
    | _ => ([], rest)
  let digits := whole ++ fraction
  if digits.isEmpty then none
  else
    let exponent : Option Int :=
      match rest with
      | [] => some 0
      | 'e' :: after | 'E' :: after => exponent? after
      | _ => none
    exponent.map fun e => ⟨valueOf digits, e - fraction.length⟩

/-- The nearest number of single precision. -/
def toSingle (d : Decimal) : Float32 :=
  Float32.ofScientific d.digits (d.exponent < 0) d.exponent.natAbs

/-- A number in single precision from its text. -/
def single? (text : String) : Option Float32 :=
  let (negative, rest) := takeSign text.toList
  let magnitude : Option Float32 :=
    match String.ofList (rest.map Char.toLower) with
    | "inf" | "infinity" => some (Float32.ofBits 0x7f800000)
    | "nan" => some (Float32.ofBits 0x7fc00000)
    | _ => (unsigned? rest).map toSingle
  magnitude.map fun x => if negative then -x else x

/-- A whole number of 64 bits without a sign; a plus sign is let pass. -/
def size? (text : String) : Option Nat :=
  let digits := match text.toList with
    | '+' :: rest => rest
    | cs => cs
  if digits.isEmpty || !digits.all isDigit then none
  else if valueOf digits < UInt64.size then some (valueOf digits) else none

end Relief.Decimal
