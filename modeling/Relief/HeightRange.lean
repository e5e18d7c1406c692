import Relief.Binary32

set_option autoImplicit false

/-! # Height ranges: the heights that fill sixteen bits

A range names the heights that are written as 0 and as 65535. It may hold any two numbers while it
is put together; it is valid when the upper bound is greater, which no NaN is. -/

namespace Relief

/-- The heights mapped to the ends of the sixteen-bit samples. -/
structure HeightRange where
  min : Float32
  max : Float32

namespace HeightRange

instance : BEq HeightRange := ⟨fun a b => a.min == b.min && a.max == b.max⟩

/-- The range from 0 to 1. -/
def unit : HeightRange := ⟨Binary32.zero, Binary32.one⟩

/-- Whether a range can be used. -/
def isValid (r : HeightRange) : Bool := decide (r.min < r.max)

/-- The place of a height in the range, 0 at the lower bound and 1 at the upper one. -/
def normalize (r : HeightRange) (h : Float32) : Float32 := (h - r.min) / (r.max - r.min)

/-- A height as a sixteen-bit sample. Heights outside the range saturate, and a NaN gives 0. -/
def quantize (r : HeightRange) (h : Float32) : UInt16 :=
  Binary32.toWord (r.normalize h * Binary32.wordTop)

end HeightRange

end Relief
