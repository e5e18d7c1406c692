import Relief.Preset
import Relief.Error

set_option autoImplicit false

/-! # Projects: the settings of a picture -/

namespace Relief

/-- Where the two maps of an export go. -/
structure Outputs where
  height : String
  color : String
deriving DecidableEq, Repr

/-- Where the maps go when nothing is said. -/
def Outputs.standard : Outputs := ⟨"height.png", "color.png"⟩

/-- The settings of a picture. -/
structure Project where
  size : Size
  range : HeightRange
  height : HeightPreset
  color : ColorPreset
  outputs : Outputs
  sampling : Sampling

namespace Project

/-- The side of a raster when nothing is said. -/
def standardSide : Nat := 1024

/-- A project of which nothing is said. -/
def standard : Project where
  size := ⟨standardSide, standardSide⟩
  range := .unit
  height := .gradientU
  color := .uv
  outputs := .standard
  sampling := .perTile

/-- Equality of settings; bounds of the range are equal when they compare as equal. -/
instance : BEq Project where
  beq a b :=
    a.size == b.size && a.range == b.range && a.height == b.height && a.color == b.color &&
      a.outputs == b.outputs && a.sampling == b.sampling

/-- Checks what no single setting shows: that the range is valid. -/
def validate (p : Project) : Except Error Unit := p.range.validate

/-- The expression of the heights. -/
def heightExpr (p : Project) : Expr := p.height.expr

/-- The expression of the colours, which may build on the heights. -/
def colorExpr (p : Project) : Expr := p.color.expr p.heightExpr

end Project

end Relief
