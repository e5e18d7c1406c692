set_option autoImplicit false

/-! # Binary32: the arithmetic of heights and colours

Every height, coordinate and colour channel is a single-precision number (`Float32`), and the four
operations on them are the ones of `Float32` itself. This module adds the conversions in and out:
sizes and integers are rounded to the nearest number with ties to even, and the way back truncates
toward zero, stops at the ends of the target and sends a NaN to zero. Everything here is defined
through operations that have a logical model, so facts about it can be proved. -/

namespace Relief.Binary32

open Float.Model (Format UnpackedFloat)

/-! ## Integers in -/

/-- A size below `2 ^ 64` as the nearest number, a tie going to the even neighbour. -/
def ofSize (n : Nat) : Float32 :=
  n.toUInt64.toFloat32

/-- A signed integer as the nearest number: the magnitude is rounded, then the sign is put back. -/
def ofInt (n : Int32) : Float32 :=
  if n < 0 then -(ofSize n.toInt.natAbs) else ofSize n.toInt.natAbs

/-! ## Integers out -/

/-- Truncation to a byte, saturating at 0 and 255; a NaN gives 0. -/
def toByte (x : Float32) : UInt8 :=
  x.toUInt8

/-- Truncation to sixteen bits, saturating at 0 and 65535; a NaN gives 0. -/
def toWord (x : Float32) : UInt16 :=
  x.toUInt16

/-- Truncation toward zero to a signed integer of 32 bits, saturating at both ends; a NaN gives 0.
    The magnitude is truncated first, so only its comparison with `2 ^ 31` is left to do. -/
def toInt (x : Float32) : Int32 :=
  if x < Float32.ofBits 0 then
    let magnitude := (-x).toUInt64
    if 0x80000000 ≤ magnitude then Int32.minValue else -(Int32.ofNat magnitude.toNat)
  else
    let magnitude := x.toUInt64
    if 0x80000000 ≤ magnitude then Int32.maxValue else Int32.ofNat magnitude.toNat

/-! ## Between numbers -/

/-- The numbers the library names. -/
def zero : Float32 := Float32.ofBits 0x00000000

@[inherit_doc zero]
def half : Float32 := Float32.ofBits 0x3f000000

@[inherit_doc zero]
def one : Float32 := Float32.ofBits 0x3f800000

/-- The largest byte, 255. -/
def byteTop : Float32 := ofSize 255

/-- The largest sixteen-bit sample, 65535. -/
def wordTop : Float32 := ofSize 65535

/-- Replaces what lies below `low` by `low` and what lies above `high` by `high`. A NaN is neither
    and stays, and so does a negative zero when `low` is zero. -/
def clamp (low high x : Float32) : Float32 :=
  if x < low then low else if high < x then high else x

/-- A double-precision number rounded to single precision, to nearest with ties to even. What is
    too large becomes infinite. -/
def narrow (x : Float) : Float32 :=
  .ofModel <| .pack <|
    match x.toModel.unpack with
    | .finite sign mantissa exponent _ =>
      UnpackedFloat.round Format.binary32 sign mantissa exponent
    | special => special

/-! ## Not a number -/

theorem lt_iff {x y : Float32} : x < y ↔ x.toModel.unpack.lt y.toModel.unpack = true :=
  decide_eq_true_iff

theorem isNaN_iff {x : Float32} : x.isNaN = true ↔ x.toModel.unpack = .notANumber := by
  show x.toModel.unpack.isNaN = true ↔ _
  cases x.toModel.unpack with
  | notANumber => exact ⟨fun _ => rfl, fun _ => rfl⟩
  | infinity | zero | finite => exact ⟨nofun, nofun⟩

/-- A product with a NaN is one. -/
theorem isNaN_mul {x : Float32} (hx : x.isNaN = true) (y : Float32) : (x * y).isNaN = true := by
  have hmul : (x * y).toModel
      = .pack (UnpackedFloat.mul Format.binary32 x.toModel.unpack y.toModel.unpack) := rfl
  have hproduct : UnpackedFloat.mul Format.binary32 .notANumber y.toModel.unpack
      = .notANumber := by
    cases y.toModel.unpack <;> rfl
  rw [isNaN_iff, hmul, isNaN_iff.1 hx, hproduct]
  rfl

/-- A NaN passes through a clamp. -/
theorem clamp_of_isNaN {x : Float32} (hx : x.isNaN = true) (low high : Float32) :
    clamp low high x = x := by
  have hlow : ¬ x < low := by
    rw [lt_iff, isNaN_iff.1 hx]
    exact Bool.false_ne_true
  have hhigh : ¬ high < x := by
    rw [lt_iff, isNaN_iff.1 hx]
    cases high.toModel.unpack <;> exact Bool.false_ne_true
  rw [clamp, if_neg hlow, if_neg hhigh]

/-- A NaN is truncated to zero. -/
theorem toByte_of_isNaN {x : Float32} (hx : x.isNaN = true) : toByte x = 0 := by
  show x.toModel.unpack.toUInt8 = 0
  rw [isNaN_iff.1 hx]
  rfl

end Relief.Binary32
