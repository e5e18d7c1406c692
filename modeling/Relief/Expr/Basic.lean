import Relief.Binary32
import Relief.Decimal.Layout

set_option autoImplicit false

/-! # Expressions: the language of height and colour fields

An expression is a tree over the two coordinates of a sample. It is built by callers and never
changes, so a subtree may stand in several places. The tree admits ill-typed combinations; which
trees mean something is decided by `Expr.kind?` and by lowering. -/

namespace Relief

/-! ## Kinds -/

/-- What kind of value an expression produces. -/
inductive Kind where
  | float
  | int
  | vec2
  | vec3
  | vec4
  | mat2
  | mat3
  | mat4
deriving DecidableEq, Repr

namespace Kind

/-- Every kind, in declaration order. -/
def all : List Kind := [float, int, vec2, vec3, vec4, mat2, mat3, mat4]

/-- The written name of a kind. -/
def name : Kind → String
  | float => "float"
  | int => "int"
  | vec2 => "vec2"
  | vec3 => "vec3"
  | vec4 => "vec4"
  | mat2 => "mat2"
  | mat3 => "mat3"
  | mat4 => "mat4"

/-- The kind of float vectors with `n` components, if there is one. -/
def vector? : Nat → Option Kind
  | 2 => some vec2
  | 3 => some vec3
  | 4 => some vec4
  | _ => none

end Kind

/-! ## Operations -/

/-- The two coordinates of a sample: `u` runs from left to right and `v` from top to bottom. -/
inductive Axis where
  | u
  | v
deriving DecidableEq, Repr

/-- The name of a coordinate. -/
def Axis.name : Axis → String
  | .u => "u"
  | .v => "v"

/-- A library of trigonometric functions on radians. The tree only names a function; what it
    computes is a parameter of lowering, so that a fact can be stated for every such library. -/
structure Trigonometry where
  sin : Float32 → Float32
  cos : Float32 → Float32
  tan : Float32 → Float32
  asin : Float32 → Float32
  acos : Float32 → Float32
  atan : Float32 → Float32

/-- The functions of the machine. -/
def Trigonometry.native : Trigonometry where
  sin := Float32.sin
  cos := Float32.cos
  tan := Float32.tan
  asin := Float32.asin
  acos := Float32.acos
  atan := Float32.atan

/-- The functions of one argument. -/
inductive UnaryOp where
  | sin
  | cos
  | tan
  | asin
  | acos
  | atan
deriving DecidableEq, Repr

namespace UnaryOp

/-- The written name of a function. -/
def name : UnaryOp → String
  | sin => "sin"
  | cos => "cos"
  | tan => "tan"
  | asin => "asin"
  | acos => "acos"
  | atan => "atan"

/-- The function itself, taken from a library. -/
def apply (trig : Trigonometry) : UnaryOp → Float32 → Float32
  | sin => trig.sin
  | cos => trig.cos
  | tan => trig.tan
  | asin => trig.asin
  | acos => trig.acos
  | atan => trig.atan

end UnaryOp

/-- The operations of two arguments. -/
inductive BinaryOp where
  | add
  | sub
  | mul
  | div
deriving DecidableEq, Repr

namespace BinaryOp

/-- The written symbol of an operation. -/
def symbol : BinaryOp → String
  | add => "+"
  | sub => "-"
  | mul => "*"
  | div => "/"

/-- The operation in single precision. -/
def apply : BinaryOp → Float32 → Float32 → Float32
  | add, a, b => a + b
  | sub, a, b => a - b
  | mul, a, b => a * b
  | div, a, b => a / b

end BinaryOp

/-! ## Trees -/

/-- An expression over the coordinates of a sample. -/
inductive Expr where
  /-- A coordinate. -/
  | var (axis : Axis)
  /-- A whole number. -/
  | int (value : Int32)
  /-- A number. -/
  | float (value : Float32)
  /-- A whole number made a number. -/
  | toFloat (source : Expr)
  /-- A number truncated toward zero. -/
  | toInt (source : Expr)
  /-- A trigonometric function of a number. -/
  | unary (op : UnaryOp) (input : Expr)
  /-- Arithmetic on numbers. -/
  | binary (op : BinaryOp) (left right : Expr)
  /-- Vectors of numbers. -/
  | vec2 (x y : Expr)
  | vec3 (x y z : Expr)
  | vec4 (x y z w : Expr)

namespace Expr

/-- Structural equality, in which two number literals are equal when they compare as equal: a NaN
    differs from itself, and the two zeros are one. -/
protected def beq : Expr → Expr → Bool
  | var a, var b => a = b
  | int a, int b => a == b
  | float a, float b => a == b
  | toFloat a, toFloat b => a.beq b
  | toInt a, toInt b => a.beq b
  | unary f a, unary g b => f = g && a.beq b
  | binary f a b, binary g c d => f = g && (a.beq c && b.beq d)
  | vec2 a b, vec2 c d => a.beq c && b.beq d
  | vec3 a b c, vec3 d e f => a.beq d && (b.beq e && c.beq f)
  | vec4 a b c d, vec4 e f g h => a.beq e && (b.beq f && (c.beq g && d.beq h))
  | _, _ => false

instance : BEq Expr := ⟨Expr.beq⟩

/-- The elements of a vector; no other expression has elements. -/
def elements? : Expr → Option (List Expr)
  | vec2 x y => some [x, y]
  | vec3 x y z => some [x, y, z]
  | vec4 x y z w => some [x, y, z, w]
  | _ => none

/-- The static kind of an expression, if it has one. Conversions and functions report what they
    produce without a look at their source, so a fault below them shows up in lowering only. -/
def kind? : Expr → Option Kind
  | var _ => some .float
  | int _ => some .int
  | float _ => some .float
  | toFloat _ => some .float
  | toInt _ => some .int
  | unary _ _ => some .float
  | binary _ a b =>
    if a.kind? = some .float ∧ b.kind? = some .float then some .float else none
  | vec2 x y =>
    if x.kind? = some .float ∧ y.kind? = some .float then some .vec2 else none
  | vec3 x y z =>
    if x.kind? = some .float ∧ y.kind? = some .float ∧ z.kind? = some .float then some .vec3
    else none
  | vec4 x y z w =>
    if x.kind? = some .float ∧ y.kind? = some .float ∧ z.kind? = some .float ∧
        w.kind? = some .float then some .vec4
    else none

/-! ## Text -/

/-- An expression in call notation, every operation in parentheses, with a given way to write the
    number literals. -/
def spellWith (number : Float32 → List Char) : Expr → List Char
  | var axis => axis.name.toList
  | int n => (toString n.toInt).toList
  | float x => number x
  | toFloat a => "float(".toList ++ a.spellWith number ++ [')']
  | toInt a => "int(".toList ++ a.spellWith number ++ [')']
  | unary op a => op.name.toList ++ '(' :: a.spellWith number ++ [')']
  | binary op a b =>
    '(' :: a.spellWith number ++ ' ' :: op.symbol.toList ++ ' ' :: b.spellWith number ++ [')']
  | vec2 x y => "vec2(".toList ++ x.spellWith number ++ ", ".toList ++ y.spellWith number ++ [')']
  | vec3 x y z =>
    "vec3(".toList ++ x.spellWith number ++ ", ".toList ++ y.spellWith number ++ ", ".toList ++
      z.spellWith number ++ [')']
  | vec4 x y z w =>
    "vec4(".toList ++ x.spellWith number ++ ", ".toList ++ y.spellWith number ++ ", ".toList ++
      z.spellWith number ++ ", ".toList ++ w.spellWith number ++ [')']

/-- The characters of an expression's text, with the fewest digits that read back for a number
    literal. -/
def spell (e : Expr) : List Char :=
  e.spellWith Decimal.Layout.expression.spell32

/-- The text of an expression. -/
def text (e : Expr) : String :=
  String.ofList e.spell

end Expr

end Relief
