import Relief.Expr.Basic

set_option autoImplicit false

/-! # What can go wrong while rendering -/

namespace Relief

/-- The two fields a picture is made of. -/
inductive Layer where
  | height
  | color
deriving DecidableEq, Repr

/-- The name of a layer. -/
def Layer.name : Layer → String
  | .height => "height"
  | .color => "color"

/-- The failures of the renderers and of the buffers they fill. -/
inductive RenderError where
  /-- An expression does not lower to the kind asked for; `found` is the kind it has, if any. -/
  | lowering (target : Kind) (found : Option Kind)
  | frameInProgress
  | noFrame
  | frameComplete
  | missingExpr (layer : Layer)
  | bufferSize (expected actual : Nat)
deriving DecidableEq, Repr

/-- The message of a failure. -/
def RenderError.message : RenderError → String
  | .lowering target found =>
    let kind := match found with
      | some k => k.name
      | none => "<untyped>"
    "expression of type " ++ kind ++ " does not lower to " ++ target.name
  | .frameInProgress => "a frame is already being rendered"
  | .noFrame => "no frame is being rendered"
  | .frameComplete => "all tiles of the current frame have been rendered"
  | .missingExpr layer => "no " ++ layer.name ++ " expression has been set"
  | .bufferSize expected actual =>
    "buffer size mismatch: expected " ++ toString expected ++ " elements, got " ++ toString actual

end Relief
