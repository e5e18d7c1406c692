set_option autoImplicit false

/-! # Shortest decimals: the fewest digits that read back

A finite binary number stands for every real that rounds to it: the reals of an interval around it,
ends included exactly when the mantissa is even. Among the decimals `digits · 10 ^ exponent` inside
that interval the shortest is the one on the coarsest decimal grid that has a point there at all,
and on that grid it can only be one of the two neighbours of the number itself. So the search walks
the grids from coarse to fine, tests two candidates on each in exact natural-number arithmetic, and
stops at the first grid with a hit. No floating-point operation takes part. -/

namespace Relief

open Float.Model (Format UnpackedFloat)

/-- The number `digits · 10 ^ exponent`. -/
structure Decimal where
  digits : Nat
  exponent : Int
deriving DecidableEq, Repr

namespace Decimal

/-- The power of ten that multiplies a grid point of exponent `k`. -/
def numerator (k : Int) : Nat := Nat.pow 10 k.toNat

/-- The power of ten that divides a grid point of exponent `k`. -/
def denominator (k : Int) : Nat := Nat.pow 10 (-k).toNat

/-! ## What rounds to a number -/

/-- A number `value / unit` with the ends `low / unit` and `high / unit` of the reals that round to
    it; `closed` says whether the ends round to it as well. -/
structure Basin where
  low : Nat
  value : Nat
  high : Nat
  unit : Nat
  closed : Bool
deriving DecidableEq, Repr

/-- The basin of `mantissa · 2 ^ exponent` in a binary format, in quarters of the last place: half
    a place to each side, and a quarter below a power of two, whose lower neighbour is nearer. -/
def Basin.ofFinite (format : Format) (mantissa : Nat) (exponent : Int) : Basin :=
  let atPower :=
    mantissa = Nat.pow 2 format.mantissaBitsWithoutImplicit ∧ format.minExponent < exponent
  let scale := Nat.pow 2 (exponent - 2).toNat
  { low := (if atPower then 4 * mantissa - 1 else 4 * mantissa - 2) * scale
    value := 4 * mantissa * scale
    high := (4 * mantissa + 2) * scale
    unit := Nat.pow 2 (2 - exponent).toNat
    closed := mantissa % 2 == 0 }

/-- Whether the decimal `digits · 10 ^ k` lies in the basin. -/
def Basin.holds (basin : Basin) (digits : Nat) (k : Int) : Bool :=
  let low := basin.low * denominator k
  let point := digits * numerator k * basin.unit
  let high := basin.high * denominator k
  if basin.closed then low ≤ point && point ≤ high else low < point && point < high

/-! ## The search -/

/-- The point of the grid of exponent `k` inside the basin that is nearest to the number, if the
    grid has a point there. -/
def Basin.nearest? (basin : Basin) (k : Int) : Option Nat :=
  let value := basin.value * denominator k
  let step := numerator k * basin.unit
  let below := value / step
  match basin.holds below k, basin.holds (below + 1) k with
  | true, true =>
    let twice := 2 * value
    let middle := (2 * below + 1) * step
    if twice < middle || (twice == middle && below % 2 == 0) then some below else some (below + 1)
  | true, false => some below
  | false, true => some (below + 1)
  | false, false => none

/-- The first hit on the grids of exponents `top`, `top - 1`, …, `grids` of them. -/
def Basin.shortest? (basin : Basin) : (grids : Nat) → (top : Int) → Option Decimal
  | 0, _ => none
  | grids + 1, top =>
    match basin.nearest? top with
    | some digits => some ⟨digits, top⟩
    | none => basin.shortest? grids (top - 1)

/-- A binary format with the decimal grids that its finite numbers need: from above the largest
    number down to the spacing of the smallest. -/
structure Grids where
  format : Format
  top : Int
  count : Nat

/-- The grids of single precision: from `10 ^ 39` to `10 ^ (-45)`. -/
def Grids.binary32 : Grids := ⟨Format.binary32, 39, 85⟩

/-- The grids of double precision: from `10 ^ 309` to `10 ^ (-324)`. -/
def Grids.binary64 : Grids := ⟨Format.binary64, 309, 634⟩

/-- The shortest decimal that reads back as `mantissa · 2 ^ exponent`; of several of that length,
    the nearest. The finest grid always has a point in the basin of a number of the format. -/
def shortest (grids : Grids) (mantissa : Nat) (exponent : Int) : Decimal :=
  (Basin.ofFinite grids.format mantissa exponent |>.shortest? grids.count grids.top).getD ⟨0, 0⟩

end Decimal

end Relief
