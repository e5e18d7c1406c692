import Relief.Expr.Basic
import Relief.Render.Error

set_option autoImplicit false

/-! # Lowering: from a tree to a field

A field gives every point of the unit square a value. Lowering turns an expression into a field of
one target kind, and does all the type checking on the way: a mismatch anywhere below the root
fails the whole tree, and what remains inspects no types any more. The trigonometric library is a
parameter (`lowerWith`); `lower` and `compile` use the machine's. -/

namespace Relief

/-! ## Points and fields -/

/-- The coordinates of one sample. -/
structure Coords where
  u : Float32
  v : Float32

namespace Coords

/-- The centre of pixel `(x, y)` in a raster of the given size, each side measured as one. -/
def ofPixel (x y width height : Nat) : Coords where
  u := (Binary32.ofSize x + Binary32.half) / Binary32.ofSize width
  v := (Binary32.ofSize y + Binary32.half) / Binary32.ofSize height

/-- The coordinate along an axis. -/
def along (c : Coords) : Axis → Float32
  | .u => c.u
  | .v => c.v

end Coords

/-- A value at every point of the unit square. -/
abbrev Field (α : Type) := Coords → α

/-- The same value everywhere. -/
def Field.constant {α : Type} (value : α) : Field α := fun _ => value

/-- A colour with its channels between 0 and 1. -/
abbrev Color := Vector Float32 3

namespace Color

/-- The first channel. -/
def red (color : Color) : Float32 := color[0]

/-- The second channel. -/
def green (color : Color) : Float32 := color[1]

/-- The third channel. -/
def blue (color : Color) : Float32 := color[2]

end Color

/-! ## Targets -/

/-- What an expression can be lowered to. -/
inductive Target where
  | float
  | int
  | vec2
  | vec3
  | vec4
deriving DecidableEq, Repr

namespace Target

/-- The kind a target stands for. -/
def kind : Target → Kind
  | float => .float
  | int => .int
  | vec2 => .vec2
  | vec3 => .vec3
  | vec4 => .vec4

/-- The values of a target. -/
@[reducible] def Value : Target → Type
  | float => Float32
  | int => Int32
  | vec2 => Vector Float32 2
  | vec3 => Vector Float32 3
  | vec4 => Vector Float32 4

end Target

/-! ## Lowering -/

namespace Expr

mutual

/-- Lowers to a field of numbers. -/
def lowerFloat (trig : Trigonometry) : Expr → Option (Field Float32)
  | var axis => some fun c => c.along axis
  | float x => some (Field.constant x)
  | toFloat a => (a.lowerInt trig).map fun f c => Binary32.ofInt (f c)
  | unary op a => (a.lowerFloat trig).map fun f c => op.apply trig (f c)
  | binary op a b =>
    (a.lowerFloat trig).bind fun f => (b.lowerFloat trig).map fun g c => op.apply (f c) (g c)
  | int _ | toInt _ | vec2 _ _ | vec3 _ _ _ | vec4 _ _ _ _ => none

/-- Lowers to a field of whole numbers; a number becomes one by truncation. -/
def lowerInt (trig : Trigonometry) : Expr → Option (Field Int32)
  | int n => some (Field.constant n)
  | toInt a => (a.lowerFloat trig).map fun f c => Binary32.toInt (f c)
  | var _ | float _ | toFloat _ | unary _ _ | binary _ _ _ | vec2 _ _ | vec3 _ _ _ | vec4 _ _ _ _ =>
    none

end

/-- Lowers to a field of vectors with two components. -/
def lowerVec2 (trig : Trigonometry) : Expr → Option (Field (Vector Float32 2))
  | vec2 x y =>
    (x.lowerFloat trig).bind fun f => (y.lowerFloat trig).map fun g c => #v[f c, g c]
  | _ => none

/-- Lowers to a field of vectors with three components. -/
def lowerVec3 (trig : Trigonometry) : Expr → Option (Field (Vector Float32 3))
  | vec3 x y z =>
    (x.lowerFloat trig).bind fun f => (y.lowerFloat trig).bind fun g =>
      (z.lowerFloat trig).map fun h c => #v[f c, g c, h c]
  | _ => none

/-- Lowers to a field of vectors with four components. -/
def lowerVec4 (trig : Trigonometry) : Expr → Option (Field (Vector Float32 4))
  | vec4 x y z w =>
    (x.lowerFloat trig).bind fun f => (y.lowerFloat trig).bind fun g =>
      (z.lowerFloat trig).bind fun h => (w.lowerFloat trig).map fun k c =>
        #v[f c, g c, h c, k c]
  | _ => none

/-- Lowers to a field of the target's values, with a given trigonometric library. -/
def lowerWith (trig : Trigonometry) : (target : Target) → Expr → Option (Field target.Value)
  | .float => lowerFloat trig
  | .int => lowerInt trig
  | .vec2 => lowerVec2 trig
  | .vec3 => lowerVec3 trig
  | .vec4 => lowerVec4 trig

/-- Lowers to a field of the target's values, with the functions of the machine. -/
def lower (target : Target) (e : Expr) : Option (Field target.Value) :=
  e.lowerWith .native target

/-- Lowers, or says what kind the expression has instead. -/
def compile (target : Target) (e : Expr) : Except RenderError (Field target.Value) :=
  match e.lower target with
  | some field => .ok field
  | none => .error (.lowering target.kind e.kind?)

theorem compile_eq_ok_iff {target : Target} {e : Expr} {field : Field target.Value} :
    e.compile target = .ok field ↔ e.lower target = some field := by
  unfold compile
  cases e.lower target <;> simp

end Expr

end Relief
