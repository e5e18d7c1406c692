import Relief.Json.Scan
import Relief.Binary32

set_option autoImplicit false

/-! # JSON numbers

A number without fraction and exponent is a whole number as long as 64 bits hold it; every other
number is in double precision. Such a number is computed, not looked up: its digits make a
significand of at most 64 bits, which is converted and then multiplied or divided by one power of
ten. Digits that no longer fit are counted in the whole part and forgotten in the fraction. So the
last place of a long number may differ from the nearest one, and the computation here is exact
about that. -/

namespace Relief.Json

/-- The value of a number as written. -/
inductive Number where
  | whole (value : Int)
  | real (value : Float)

/-! ## Digits -/

/-- Whether a character is a decimal digit. -/
def isDigit (c : Char) : Bool := '0' ≤ c && c ≤ '9'

/-- The digits at the front of the characters, and what follows. -/
def digitsOf (cs : List Char) : List Nat × List Char :=
  ((cs.takeWhile isDigit).map fun c => c.toNat - '0'.toNat, cs.dropWhile isDigit)

/-- The largest significand. -/
def significandTop : Nat := UInt64.size - 1

/-- Appends digits to a significand until the next one does not fit; answers with the significand
    and the digits left over. -/
def absorb : Nat → List Nat → Nat × List Nat
  | significand, [] => (significand, [])
  | significand, d :: ds =>
    if significand * 10 + d ≤ significandTop then absorb (significand * 10 + d) ds
    else (significand, d :: ds)

/-! ## Scaling -/

/-- The power of ten with a small exponent, as the nearest number. -/
def powerOfTen (e : Nat) : Float := Float.ofScientific 1 false e

/-- The largest exponent of a power of ten in double precision. -/
def powerLimit : Nat := 308

/-- Divides by a power of ten, in several steps when one power does not reach. -/
def shrink (x : Float) (e : Nat) : Float :=
  if e ≤ powerLimit then x / powerOfTen e
  else if x == 0 then x
  else shrink (x / powerOfTen powerLimit) (e - powerLimit)
termination_by e
decreasing_by simp only [powerLimit] at *; omega

/-- The number `± significand · 10 ^ exponent`, unless it is too large. -/
def realOf (negative : Bool) (significand : Nat) (exponent : Int) : Except Fault Float :=
  let x := significand.toUInt64.toFloat
  let magnitude : Except Fault Float :=
    if exponent < 0 then .ok (shrink x exponent.natAbs)
    else if exponent.natAbs ≤ powerLimit then
      let y := x * powerOfTen exponent.natAbs
      if y.isInf then .error .numberOutOfRange else .ok y
    else if x == 0 then .ok x
    else .error .numberOutOfRange
  magnitude.map fun y => if negative then -y else y

/-! ## Reading -/

/-- The largest exponent that is read as a number. -/
def exponentTop : Nat := 2147483647

/-- The largest signed integer of 64 bits. -/
def signedTop : Nat := 9223372036854775807

/-- The value of a list of digits. -/
def digitsValue (ds : List Nat) : Nat := ds.foldl (fun n d => n * 10 + d) 0

/-- Reads an exponent whose letter has been passed, and completes the number. -/
def readExponent (negative : Bool) (significand : Nat) (exponent : Int) : Reader Float := fun cs =>
  let (down, cs) : Bool × List Char :=
    match cs with
    | '+' :: rest => (false, rest)
    | '-' :: rest => (true, rest)
    | _ => (false, cs)
  match digitsOf cs with
  | ([], []) => .error .endInValue
  | ([], _ :: _) => .error .invalidNumber
  | (digits, rest) =>
    let written := digitsValue digits
    if exponentTop < written then
      if significand != 0 && !down then .error .numberOutOfRange
      else .ok (if negative then -0.0 else 0.0, rest)
    else
      let total := if down then exponent - written else exponent + written
      (realOf negative significand total).map fun x => (x, rest)

/-- Reads a fraction whose point has been passed, and completes the number. -/
def readFraction (negative : Bool) (significand : Nat) (exponent : Int) : Reader Float := fun cs =>
  match digitsOf cs with
  | ([], []) => .error .endInValue
  | ([], _ :: _) => .error .invalidNumber
  | (digits, rest) =>
    let (full, left) := absorb significand digits
    let scaled := exponent - (digits.length - left.length : Nat)
    match rest with
    | 'e' :: after | 'E' :: after => readExponent negative full scaled after
    | _ => (realOf negative full scaled).map fun x => (x, rest)

/-- A whole number as it is taken: in double precision when it is a negative zero or below the
    least integer of 64 bits. -/
def wholeOf (negative : Bool) (significand : Nat) : Number :=
  if negative then
    if significand = 0 ∨ signedTop + 1 < significand then .real (-significand.toUInt64.toFloat)
    else .whole (-significand)
  else .whole significand

/-- Reads a number whose sign has been passed. -/
def readNumber (negative : Bool) : Reader Number := fun cs =>
  match digitsOf cs with
  | ([], []) => .error .endInValue
  | ([], _ :: _) => .error .invalidNumber
  | (0 :: _ :: _, _) => .error .invalidNumber
  | (digits, rest) =>
    let (significand, left) := absorb 0 digits
    let exponent : Int := left.length
    match rest with
    | '.' :: after =>
      (readFraction negative significand exponent after).map fun (x, r) => (.real x, r)
    | 'e' :: after | 'E' :: after =>
      (readExponent negative significand exponent after).map fun (x, r) => (.real x, r)
    | _ =>
      if left.isEmpty then .ok (wholeOf negative significand, rest)
      else (realOf negative significand exponent).map fun x => (.real x, rest)

/-! ## Passing over -/

/-- Passes over an exponent whose letter has been passed. -/
def skipExponent (cs : List Char) : Except Fault (List Char) :=
  let cs := match cs with
    | '+' :: rest | '-' :: rest => rest
    | _ => cs
  match digitsOf cs with
  | ([], _) => .error .invalidNumber
  | (_, rest) => .ok rest

/-- Passes over a number whose sign has been passed. Its size does not matter. -/
def skipNumber (cs : List Char) : Except Fault (List Char) :=
  match digitsOf cs with
  | ([], _) => .error .invalidNumber
  | (0 :: _ :: _, _) => .error .invalidNumber
  | (_, '.' :: after) =>
    match digitsOf after with
    | ([], _) => .error .invalidNumber
    | (_, 'e' :: rest) | (_, 'E' :: rest) => skipExponent rest
    | (_, rest) => .ok rest
  | (_, 'e' :: rest) | (_, 'E' :: rest) => skipExponent rest
  | (_, rest) => .ok rest

end Relief.Json
