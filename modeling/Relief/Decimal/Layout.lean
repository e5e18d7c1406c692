import Relief.Decimal.Shortest

set_option autoImplicit false

/-! # Decimal layouts: how a number is written down

Which digits stand for a number is settled by `Decimal.shortest`; a `Layout` says how they are laid
out: for which exponents of the leading digit the number is written without an exponent, whether a
whole number then keeps `.0`, and whether a positive exponent carries a plus sign. The library
writes numbers in four places, each with its own layout. -/

namespace Relief.Decimal

open Float.Model (UnpackedFloat)
open Float.Model.UnpackedFloat (Sign)

/-- The choices of a written number. -/
structure Layout where
  /-- The least and greatest exponent of the leading digit for which no exponent is written; with
      `none` no number has one. -/
  plain : Option (Int × Int)
  /-- Whether a whole number without an exponent ends in `.0`. -/
  pointZero : Bool
  /-- Whether a positive exponent is written with a plus sign. -/
  plusSign : Bool

/-- Numbers in the text of an expression. -/
def Layout.expression : Layout := ⟨some (-4, 15), true, false⟩

/-- Numbers in an error message. -/
def Layout.message : Layout := ⟨none, false, false⟩

/-- Single-precision numbers in a project document. -/
def Layout.document : Layout := ⟨some (-6, 12), true, true⟩

/-- Double-precision numbers in a complaint about a project document. -/
def Layout.complaint : Layout := ⟨some (-5, 15), true, true⟩

/-! ## Digits -/

/-- The exponent of the leading digit when `digits` stand above `10 ^ exponent`. -/
def leading (digits : List Char) (exponent : Int) : Int :=
  exponent + digits.length - 1

/-- Digits written without an exponent: zeros are filled in up to the point. -/
def spellPlain (pointZero : Bool) (digits : List Char) (exponent : Int) : List Char :=
  if 0 ≤ exponent then
    digits ++ List.replicate exponent.toNat '0' ++ (if pointZero then ['.', '0'] else [])
  else
    let whole := digits.length - (-exponent).toNat
    if whole = 0 then
      '0' :: '.' :: List.replicate ((-exponent).toNat - digits.length) '0' ++ digits
    else
      digits.take whole ++ '.' :: digits.drop whole

/-- Digits written with an exponent: one digit before the point, and no point after a lone digit. -/
def spellScientific (plusSign : Bool) (digits : List Char) (exponent : Int) : List Char :=
  let lead := leading digits exponent
  let mantissa :=
    match digits with
    | [] => []
    | [d] => [d]
    | d :: rest => d :: '.' :: rest
  let sign := if lead < 0 then ['-'] else if plusSign then ['+'] else []
  mantissa ++ 'e' :: sign ++ (toString lead.natAbs).toList

/-- A decimal in a layout. -/
def Layout.spell (layout : Layout) (d : Decimal) : List Char :=
  let digits := (toString d.digits).toList
  let lead := leading digits d.exponent
  let isPlain :=
    match layout.plain with
    | some (least, greatest) => decide (least ≤ lead ∧ lead ≤ greatest)
    | none => true
  if isPlain then spellPlain layout.pointZero digits d.exponent
  else spellScientific layout.plusSign digits d.exponent

/-! ## Numbers -/

/-- The minus sign of a negative number. -/
def signMark : Sign → List Char
  | .negative => ['-']
  | .positive => []

/-- A binary number in a layout, the special values as `NaN`, `inf` and `-inf`; a zero keeps its
    sign. -/
def Layout.spellUnpacked (layout : Layout) (grids : Grids) : UnpackedFloat → List Char
  | .notANumber => ['N', 'a', 'N']
  | .infinity sign => signMark sign ++ ['i', 'n', 'f']
  | .zero sign => signMark sign ++ layout.spell ⟨0, 0⟩
  | .finite sign mantissa exponent _ =>
    signMark sign ++ layout.spell (shortest grids mantissa exponent)

/-- A single-precision number in a layout. -/
def Layout.spell32 (layout : Layout) (x : Float32) : List Char :=
  layout.spellUnpacked .binary32 x.toModel.unpack

/-- A double-precision number in a layout. -/
def Layout.spell64 (layout : Layout) (x : Float) : List Char :=
  layout.spellUnpacked .binary64 x.toModel.unpack

end Relief.Decimal
