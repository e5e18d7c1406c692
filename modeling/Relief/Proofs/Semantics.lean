import Relief.Expr.Lowering
import Relief.Project.Basic

set_option autoImplicit false

/-! # Semantics: types and values of expressions

What an expression means is said by two relations that know nothing of lowering: which type it has
(`HasType`), and which value it has at a point (`Evaluates`). Both follow the tree. An expression
has at most one type and at most one value, and lowering finds both: it succeeds at the type and
nowhere else, and the field it yields takes the values (`compile_correct`).

The lemmas are about any trigonometric library. Soundness is one induction on the tree for the two
targets that lower each other, numbers and whole numbers; the vectors are built from numbers. That
the fields with a name compile is read off their types. -/

namespace Relief

/-! ## The two relations -/

/-- A value of any target. -/
inductive Expr.Value where
  | float (x : Float32)
  | int (n : Int32)
  | vec2 (xs : Vector Float32 2)
  | vec3 (xs : Vector Float32 3)
  | vec4 (xs : Vector Float32 4)

/-- A value of one target among all values. -/
def Target.toValue : (target : Target) → target.Value → Expr.Value
  | .float => .float
  | .int => .int
  | .vec2 => .vec2
  | .vec3 => .vec3
  | .vec4 => .vec4

namespace Expr

/-- Strict typing: operands have exactly the type that is asked for, and only the two conversions
    lead from numbers to whole numbers and back. -/
inductive HasType : Expr → Target → Prop where
  | var (axis : Axis) : HasType (.var axis) .float
  | int (n : Int32) : HasType (.int n) .int
  | float (x : Float32) : HasType (.float x) .float
  | toFloat {a : Expr} : HasType a .int → HasType (.toFloat a) .float
  | toInt {a : Expr} : HasType a .float → HasType (.toInt a) .int
  | unary (op : UnaryOp) {a : Expr} : HasType a .float → HasType (.unary op a) .float
  | binary (op : BinaryOp) {a b : Expr} :
      HasType a .float → HasType b .float → HasType (.binary op a b) .float
  | vec2 {x y : Expr} : HasType x .float → HasType y .float → HasType (.vec2 x y) .vec2
  | vec3 {x y z : Expr} :
      HasType x .float → HasType y .float → HasType z .float → HasType (.vec3 x y z) .vec3
  | vec4 {x y z w : Expr} :
      HasType x .float → HasType y .float → HasType z .float → HasType w .float →
      HasType (.vec4 x y z w) .vec4

/-- Evaluation at a point, from the leaves up. -/
inductive Evaluates (trig : Trigonometry) (c : Coords) : Expr → Value → Prop where
  | var (axis : Axis) : Evaluates trig c (.var axis) (.float (c.along axis))
  | int (n : Int32) : Evaluates trig c (.int n) (.int n)
  | float (x : Float32) : Evaluates trig c (.float x) (.float x)
  | toFloat {a : Expr} {n : Int32} :
      Evaluates trig c a (.int n) → Evaluates trig c (.toFloat a) (.float (Binary32.ofInt n))
  | toInt {a : Expr} {x : Float32} :
      Evaluates trig c a (.float x) → Evaluates trig c (.toInt a) (.int (Binary32.toInt x))
  | unary (op : UnaryOp) {a : Expr} {x : Float32} :
      Evaluates trig c a (.float x) → Evaluates trig c (.unary op a) (.float (op.apply trig x))
  | binary (op : BinaryOp) {a b : Expr} {x y : Float32} :
      Evaluates trig c a (.float x) → Evaluates trig c b (.float y) →
      Evaluates trig c (.binary op a b) (.float (op.apply x y))
  | vec2 {a b : Expr} {x y : Float32} :
      Evaluates trig c a (.float x) → Evaluates trig c b (.float y) →
      Evaluates trig c (.vec2 a b) (.vec2 #v[x, y])
  | vec3 {a b d : Expr} {x y z : Float32} :
      Evaluates trig c a (.float x) → Evaluates trig c b (.float y) →
      Evaluates trig c d (.float z) → Evaluates trig c (.vec3 a b d) (.vec3 #v[x, y, z])
  | vec4 {a b d e : Expr} {x y z w : Float32} :
      Evaluates trig c a (.float x) → Evaluates trig c b (.float y) →
      Evaluates trig c d (.float z) → Evaluates trig c e (.float w) →
      Evaluates trig c (.vec4 a b d e) (.vec4 #v[x, y, z, w])

/-! ## One type, one value -/

/-- An expression has at most one type. -/
theorem HasType.unique {e : Expr} {target target' : Target} (h : e.HasType target)
    (h' : e.HasType target') : target = target' := by
  cases h <;> cases h' <;> rfl

section

variable {trig : Trigonometry} {c : Coords}

/-- An expression has at most one value at a point. -/
theorem Evaluates.unique {e : Expr} {value value' : Value} (h : e.Evaluates trig c value)
    (h' : e.Evaluates trig c value') : value = value' := by
  induction h generalizing value' with
  | var axis => cases h'; rfl
  | int n => cases h'; rfl
  | float x => cases h'; rfl
  | toFloat _ ih =>
      cases h' with
      | toFloat ha => cases ih ha; rfl
  | toInt _ ih =>
      cases h' with
      | toInt ha => cases ih ha; rfl
  | unary op _ ih =>
      cases h' with
      | unary _ ha => cases ih ha; rfl
  | binary op _ _ iha ihb =>
      cases h' with
      | binary _ ha hb => cases iha ha; cases ihb hb; rfl
  | vec2 _ _ iha ihb =>
      cases h' with
      | vec2 ha hb => cases iha ha; cases ihb hb; rfl
  | vec3 _ _ _ iha ihb ihd =>
      cases h' with
      | vec3 ha hb hd => cases iha ha; cases ihb hb; cases ihd hd; rfl
  | vec4 _ _ _ _ iha ihb ihd ihe =>
      cases h' with
      | vec4 ha hb hd he => cases iha ha; cases ihb hb; cases ihd hd; cases ihe he; rfl

/-! ## Lowering finds them -/

/-- A field means an expression at a target when the target is the type of the expression, and the
    field gives it its value at every point. -/
structure Means (trig : Trigonometry) (e : Expr) (target : Target) (field : Field target.Value) :
    Prop where
  typed : e.HasType target
  evaluates : ∀ c, e.Evaluates trig c (target.toValue (field c))

/-- The two targets that lower each other, in one induction on the tree. -/
theorem lowerFloat_lowerInt_means (e : Expr) :
    (∀ f, e.lowerFloat trig = some f → e.Means trig .float f) ∧
      ∀ f, e.lowerInt trig = some f → e.Means trig .int f := by
  induction e with
  | var axis =>
      refine ⟨fun f h => ?_, nofun⟩
      cases h
      exact ⟨.var axis, fun c => .var axis⟩
  | int n =>
      refine ⟨nofun, fun f h => ?_⟩
      cases h
      exact ⟨.int n, fun c => .int n⟩
  | float x =>
      refine ⟨fun f h => ?_, nofun⟩
      cases h
      exact ⟨.float x, fun c => .float x⟩
  | toFloat a ih =>
      -- A conversion asks for the other target below it, so the induction carries both.
      refine ⟨fun f h => ?_, nofun⟩
      obtain ⟨g, hg, rfl⟩ := Option.map_eq_some_iff.1 h
      have ha := ih.2 g hg
      exact ⟨.toFloat ha.typed, fun c => .toFloat (ha.evaluates c)⟩
  | toInt a ih =>
      refine ⟨nofun, fun f h => ?_⟩
      obtain ⟨g, hg, rfl⟩ := Option.map_eq_some_iff.1 h
      have ha := ih.1 g hg
      exact ⟨.toInt ha.typed, fun c => .toInt (ha.evaluates c)⟩
  | unary op a ih =>
      refine ⟨fun f h => ?_, nofun⟩
      obtain ⟨g, hg, rfl⟩ := Option.map_eq_some_iff.1 h
      have ha := ih.1 g hg
      exact ⟨.unary op ha.typed, fun c => .unary op (ha.evaluates c)⟩
  | binary op a b iha ihb =>
      refine ⟨fun f h => ?_, nofun⟩
      obtain ⟨g, hg, h⟩ := Option.bind_eq_some_iff.1 h
      obtain ⟨k, hk, rfl⟩ := Option.map_eq_some_iff.1 h
      have ha := iha.1 g hg
      have hb := ihb.1 k hk
      exact ⟨.binary op ha.typed hb.typed, fun c => .binary op (ha.evaluates c) (hb.evaluates c)⟩
  | vec2 => exact ⟨nofun, nofun⟩
  | vec3 => exact ⟨nofun, nofun⟩
  | vec4 => exact ⟨nofun, nofun⟩

/-- **Lowering is sound**: the field of an expression means it. -/
theorem means_of_lowerWith {e : Expr} {target : Target} {field : Field target.Value}
    (h : e.lowerWith trig target = some field) : e.Means trig target field := by
  have number : ∀ {a : Expr} {f : Field Float32}, a.lowerFloat trig = some f →
      a.Means trig .float f := fun {a f} => (lowerFloat_lowerInt_means a).1 f
  cases target with
  | float => exact number h
  | int => exact (lowerFloat_lowerInt_means e).2 field h
  | vec2 =>
      cases e with
      | vec2 x y =>
          obtain ⟨f, hf, h⟩ := Option.bind_eq_some_iff.1 h
          obtain ⟨g, hg, rfl⟩ := Option.map_eq_some_iff.1 h
          exact ⟨.vec2 (number hf).typed (number hg).typed,
            fun c => .vec2 ((number hf).evaluates c) ((number hg).evaluates c)⟩
      | _ => cases h
  | vec3 =>
      cases e with
      | vec3 x y z =>
          obtain ⟨f, hf, h⟩ := Option.bind_eq_some_iff.1 h
          obtain ⟨g, hg, h⟩ := Option.bind_eq_some_iff.1 h
          obtain ⟨k, hk, rfl⟩ := Option.map_eq_some_iff.1 h
          exact ⟨.vec3 (number hf).typed (number hg).typed (number hk).typed,
            fun c => .vec3 ((number hf).evaluates c) ((number hg).evaluates c)
              ((number hk).evaluates c)⟩
      | _ => cases h
  | vec4 =>
      cases e with
      | vec4 x y z w =>
          obtain ⟨f, hf, h⟩ := Option.bind_eq_some_iff.1 h
          obtain ⟨g, hg, h⟩ := Option.bind_eq_some_iff.1 h
          obtain ⟨k, hk, h⟩ := Option.bind_eq_some_iff.1 h
          obtain ⟨l, hl, rfl⟩ := Option.map_eq_some_iff.1 h
          exact ⟨.vec4 (number hf).typed (number hg).typed (number hk).typed (number hl).typed,
            fun c => .vec4 ((number hf).evaluates c) ((number hg).evaluates c)
              ((number hk).evaluates c) ((number hl).evaluates c)⟩
      | _ => cases h

/-- **Lowering is complete**: what has a type lowers to it. -/
theorem HasType.lowers {e : Expr} {target : Target} (h : e.HasType target) :
    ∃ field, e.lowerWith trig target = some field := by
  induction h with
  | var axis => exact ⟨_, rfl⟩
  | int n => exact ⟨_, rfl⟩
  | float x => exact ⟨_, rfl⟩
  | toFloat _ ih =>
      obtain ⟨f, hf⟩ := ih
      exact ⟨_, Option.map_eq_some_iff.2 ⟨f, hf, rfl⟩⟩
  | toInt _ ih =>
      obtain ⟨f, hf⟩ := ih
      exact ⟨_, Option.map_eq_some_iff.2 ⟨f, hf, rfl⟩⟩
  | unary op _ ih =>
      obtain ⟨f, hf⟩ := ih
      exact ⟨_, Option.map_eq_some_iff.2 ⟨f, hf, rfl⟩⟩
  | binary op _ _ iha ihb =>
      obtain ⟨f, hf⟩ := iha
      obtain ⟨g, hg⟩ := ihb
      exact ⟨_, Option.bind_eq_some_iff.2 ⟨f, hf, Option.map_eq_some_iff.2 ⟨g, hg, rfl⟩⟩⟩
  | vec2 _ _ iha ihb =>
      obtain ⟨f, hf⟩ := iha
      obtain ⟨g, hg⟩ := ihb
      exact ⟨_, Option.bind_eq_some_iff.2 ⟨f, hf, Option.map_eq_some_iff.2 ⟨g, hg, rfl⟩⟩⟩
  | vec3 _ _ _ iha ihb ihd =>
      obtain ⟨f, hf⟩ := iha
      obtain ⟨g, hg⟩ := ihb
      obtain ⟨k, hk⟩ := ihd
      exact ⟨_, Option.bind_eq_some_iff.2 ⟨f, hf, Option.bind_eq_some_iff.2 ⟨g, hg,
        Option.map_eq_some_iff.2 ⟨k, hk, rfl⟩⟩⟩⟩
  | vec4 _ _ _ _ iha ihb ihd ihe =>
      obtain ⟨f, hf⟩ := iha
      obtain ⟨g, hg⟩ := ihb
      obtain ⟨k, hk⟩ := ihd
      obtain ⟨l, hl⟩ := ihe
      exact ⟨_, Option.bind_eq_some_iff.2 ⟨f, hf, Option.bind_eq_some_iff.2 ⟨g, hg,
        Option.bind_eq_some_iff.2 ⟨k, hk, Option.map_eq_some_iff.2 ⟨l, hl, rfl⟩⟩⟩⟩⟩

end

/-- An expression that compiles has the target as its type. -/
theorem hasType_of_compile {e : Expr} {target : Target} {field : Field target.Value}
    (h : e.compile target = .ok field) : e.HasType target :=
  (means_of_lowerWith (compile_eq_ok_iff.1 h)).typed

/-- Exactly the expressions of a type compile to it. -/
theorem compile_ok_iff_hasType (e : Expr) (target : Target) :
    (∃ field, e.compile target = .ok field) ↔ e.HasType target := by
  constructor
  · rintro ⟨field, h⟩
    exact hasType_of_compile h
  · intro h
    obtain ⟨field, hfield⟩ : ∃ field, e.lower target = some field := h.lowers
    exact ⟨field, compile_eq_ok_iff.2 hfield⟩

/-- The value that a compiled field takes at a point is the one value of the expression there. -/
theorem evaluates_iff_of_compile {e : Expr} {target : Target} {field : Field target.Value}
    (h : e.compile target = .ok field) (c : Coords) (value : Value) :
    e.Evaluates .native c value ↔ value = target.toValue (field c) := by
  have heval := (means_of_lowerWith (compile_eq_ok_iff.1 h)).evaluates c
  constructor
  · intro hvalue
    exact hvalue.unique heval
  · rintro rfl
    exact heval

/-- **Compilation is sound and complete for the typed semantics.** An expression compiles to a
    target exactly if it has its type, the field then takes the one value that the expression has
    at every point, and there is at most one such target. -/
theorem compile_correct (e : Expr) :
    (∀ target, (∃ field, e.compile target = .ok field) ↔ e.HasType target) ∧
    (∀ (target : Target) (field : Field target.Value), e.compile target = .ok field →
      ∀ c value, e.Evaluates .native c value ↔ value = target.toValue (field c)) ∧
    ∀ (target target' : Target) (field : Field target.Value) (field' : Field target'.Value),
      e.compile target = .ok field → e.compile target' = .ok field' → target = target' :=
  ⟨e.compile_ok_iff_hasType, fun _ _ h => evaluates_iff_of_compile h,
    fun _ _ _ _ h h' => (hasType_of_compile h).unique (hasType_of_compile h')⟩

end Expr

/-! ## The fields with a name -/

/-- Every height preset is a number. -/
theorem HeightPreset.hasType (preset : HeightPreset) : preset.expr.HasType .float := by
  cases preset <;> repeat constructor

/-- Every colour preset over a number is a vector of three numbers. -/
theorem ColorPreset.hasType {base : Expr} (hbase : base.HasType .float) (preset : ColorPreset) :
    (preset.expr base).HasType .vec3 := by
  cases preset with
  | uv => exact .vec3 (.var .u) (.var .v) (.float _)
  | height => exact .vec3 hbase hbase hbase
  | white => exact .vec3 (.float _) (.float _) (.float _)

/-- Both expressions of a project compile. -/
theorem Project.exprs_compile (p : Project) :
    (∃ field, p.heightExpr.compile .float = .ok field) ∧
      ∃ color, p.colorExpr.compile .vec3 = .ok color := by
  rw [Expr.compile_ok_iff_hasType, Expr.compile_ok_iff_hasType]
  exact ⟨p.height.hasType, p.color.hasType p.height.hasType⟩

end Relief
