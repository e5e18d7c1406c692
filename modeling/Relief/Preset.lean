import Relief.Expr.Basic
import Relief.Render.Frame
import Relief.Text.Case

set_option autoImplicit false

/-! # Presets: fields with a name

Expressions have no text form to be read back, so projects and commands pick their fields by name
from the ones built here. -/

namespace Relief

/-- Reads a name out of a list of named values, exactly or up to the case of ASCII letters. -/
def named? {α : Type} (values : List α) (name : α → String) (ignoreCase : Bool) (text : String) :
    Option α :=
  if ignoreCase then values.find? fun value => Text.sameLetters (name value) text
  else values.find? fun value => name value == text

/-! ## Heights -/

/-- The height fields with a name. -/
inductive HeightPreset where
  /-- Zero everywhere. -/
  | flat
  /-- Rises from left to right. -/
  | gradientU
  /-- Rises from top to bottom. -/
  | gradientV
  /-- A sine along one axis and a cosine along the other. -/
  | ripple
  /-- A paraboloid with its peak in the middle. -/
  | dome
  /-- Eight flat steps from left to right. -/
  | terraces
deriving DecidableEq, Repr

namespace HeightPreset

/-- Every preset, in declaration order. -/
def all : List HeightPreset := [flat, gradientU, gradientV, ripple, dome, terraces]

/-- The name of a preset. -/
def name : HeightPreset → String
  | flat => "flat"
  | gradientU => "gradient-u"
  | gradientV => "gradient-v"
  | ripple => "ripple"
  | dome => "dome"
  | terraces => "terraces"

/-- The preset of a name. -/
def ofName? (ignoreCase : Bool) (text : String) : Option HeightPreset :=
  named? all name ignoreCase text

/-- The whole number `n` as a literal. -/
def literal (n : Nat) : Expr := .float (Binary32.ofSize n)

/-- One half, as a literal. -/
def half : Expr := .float Binary32.half

/-- One quarter, as a literal. -/
def quarter : Expr := .float (Binary32.half * Binary32.half)

/-- The expression of a preset. -/
def expr : HeightPreset → Expr
  | flat => literal 0
  | gradientU => .var .u
  | gradientV => .var .v
  | ripple =>
    -- 0.5 + 0.25 (sin 20u + cos 20v)
    let waves :=
      Expr.binary .add (.unary .sin (.binary .mul (.var .u) (literal 20)))
        (.unary .cos (.binary .mul (.var .v) (literal 20)))
    .binary .add half (.binary .mul quarter waves)
  | dome =>
    -- 1 - 2 ((u - 0.5)² + (v - 0.5)²)
    let du := Expr.binary .sub (.var .u) half
    let dv := Expr.binary .sub (.var .v) half
    let squared := Expr.binary .add (.binary .mul du du) (.binary .mul dv dv)
    .binary .sub (literal 1) (.binary .mul (literal 2) squared)
  | terraces =>
    -- ⌊8u⌋ / 8
    let step := Expr.toInt (.binary .mul (.var .u) (literal 8))
    .binary .div (.toFloat step) (literal 8)

end HeightPreset

/-! ## Colours -/

/-- The colour fields with a name. -/
inductive ColorPreset where
  /-- Red follows `u`, green follows `v`, and blue is full. -/
  | uv
  /-- The height as a shade of grey. -/
  | height
  | white
deriving DecidableEq, Repr

namespace ColorPreset

/-- Every preset, in declaration order. -/
def all : List ColorPreset := [uv, height, white]

/-- The name of a preset. -/
def name : ColorPreset → String
  | uv => "uv"
  | height => "height"
  | white => "white"

/-- The preset of a name. -/
def ofName? (ignoreCase : Bool) (text : String) : Option ColorPreset :=
  named? all name ignoreCase text

/-- The expression of a preset over a height field. -/
def expr (base : Expr) : ColorPreset → Expr
  | uv => .vec3 (.var .u) (.var .v) (HeightPreset.literal 1)
  | height => .vec3 base base base
  | white => .vec3 (HeightPreset.literal 1) (HeightPreset.literal 1) (HeightPreset.literal 1)

end ColorPreset

/-! ## Sampling -/

namespace Sampling

/-- Every way of sampling, in declaration order. -/
def all : List Sampling := [perTile, raster]

/-- The name of a way of sampling. -/
def name : Sampling → String
  | perTile => "per-tile"
  | raster => "raster"

/-- The way of sampling of a name. -/
def ofName? (ignoreCase : Bool) (text : String) : Option Sampling :=
  named? all name ignoreCase text

end Sampling

end Relief
