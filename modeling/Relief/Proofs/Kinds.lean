import Relief.Proofs.Semantics

set_option autoImplicit false

/-! # Kinds: how far the static kind of an expression foretells lowering

`Expr.kind?` is quick and lazy: a conversion or a function reports what it produces and does not
look below itself. Lowering is strict. What lies between the two is one local condition, that every
conversion and every function inside the expression finds the kind it asks for directly below it
(`Expr.Fits`). With it the static kind decides lowering (`compile_iff_kind`).

Strict typing is the bridge: it is compared with kinds and fits by one induction on the tree in each
direction, and with lowering in the semantics of expressions. -/

namespace Relief.Expr

/-! ## The local condition -/

/-- Every expression inside an expression, itself included. -/
def nodes : Expr → List Expr
  | var axis => [var axis]
  | int n => [int n]
  | float x => [float x]
  | toFloat a => toFloat a :: a.nodes
  | toInt a => toInt a :: a.nodes
  | unary op a => unary op a :: a.nodes
  | binary op a b => binary op a b :: (a.nodes ++ b.nodes)
  | vec2 x y => vec2 x y :: (x.nodes ++ y.nodes)
  | vec3 x y z => vec3 x y z :: (x.nodes ++ (y.nodes ++ z.nodes))
  | vec4 x y z w => vec4 x y z w :: (x.nodes ++ (y.nodes ++ (z.nodes ++ w.nodes)))

/-- Whether an expression is a conversion or a function, whose static kind does not depend on what
    stands below it. -/
def isBlind : Expr → Bool
  | toFloat _ | toInt _ | unary _ _ => true
  | var _ | int _ | float _ | binary _ _ _ | vec2 _ _ | vec3 _ _ _ | vec4 _ _ _ _ => false

/-- Whether a conversion or a function has the kind it asks for directly below it. Other expressions
    ask for nothing that their own static kind does not show. -/
def Fits : Expr → Prop
  | toFloat a => a.kind? = some .int
  | toInt a => a.kind? = some .float
  | unary _ a => a.kind? = some .float
  | var _ | int _ | float _ | binary _ _ _ | vec2 _ _ | vec3 _ _ _ | vec4 _ _ _ _ => True

theorem fits_of_isBlind_eq_false {e : Expr} (h : e.isBlind = false) : e.Fits := by
  cases e with
  | toFloat | toInt | unary => cases h
  | var | int | float | binary | vec2 | vec3 | vec4 => trivial

/-- Whether the local condition holds everywhere inside an expression. -/
def FitsInside (e : Expr) : Prop := ∀ n ∈ e.nodes, n.Fits

section

variable {a b c d : Expr}

@[simp]
theorem fitsInside_toFloat : (toFloat a).FitsInside ↔ a.kind? = some .int ∧ a.FitsInside := by
  simp only [FitsInside, nodes, List.forall_mem_cons, Fits]

@[simp]
theorem fitsInside_toInt : (toInt a).FitsInside ↔ a.kind? = some .float ∧ a.FitsInside := by
  simp only [FitsInside, nodes, List.forall_mem_cons, Fits]

@[simp]
theorem fitsInside_unary {op : UnaryOp} :
    (unary op a).FitsInside ↔ a.kind? = some .float ∧ a.FitsInside := by
  simp only [FitsInside, nodes, List.forall_mem_cons, Fits]

@[simp]
theorem fitsInside_binary {op : BinaryOp} :
    (binary op a b).FitsInside ↔ a.FitsInside ∧ b.FitsInside := by
  simp only [FitsInside, nodes, List.forall_mem_cons, List.forall_mem_append, Fits, true_and]

@[simp]
theorem fitsInside_vec2 : (vec2 a b).FitsInside ↔ a.FitsInside ∧ b.FitsInside := by
  simp only [FitsInside, nodes, List.forall_mem_cons, List.forall_mem_append, Fits, true_and]

@[simp]
theorem fitsInside_vec3 :
    (vec3 a b c).FitsInside ↔ a.FitsInside ∧ b.FitsInside ∧ c.FitsInside := by
  simp only [FitsInside, nodes, List.forall_mem_cons, List.forall_mem_append, Fits, true_and]

@[simp]
theorem fitsInside_vec4 :
    (vec4 a b c d).FitsInside ↔ a.FitsInside ∧ b.FitsInside ∧ c.FitsInside ∧ d.FitsInside := by
  simp only [FitsInside, nodes, List.forall_mem_cons, List.forall_mem_append, Fits, true_and]

end

/-! ## Types, kinds and fits -/

/-- The static kind of a typed expression is its type. -/
theorem HasType.kind?_eq {e : Expr} {target : Target} (h : e.HasType target) :
    e.kind? = some target.kind := by
  induction h with
  | var | int | float | toFloat | toInt | unary => rfl
  | binary op _ _ iha ihb => exact if_pos ⟨iha, ihb⟩
  | vec2 _ _ iha ihb => exact if_pos ⟨iha, ihb⟩
  | vec3 _ _ _ iha ihb ihc => exact if_pos ⟨iha, ihb, ihc⟩
  | vec4 _ _ _ _ iha ihb ihc ihd => exact if_pos ⟨iha, ihb, ihc, ihd⟩

/-- In a typed expression every conversion and function finds what it asks for. -/
theorem HasType.fitsInside {e : Expr} {target : Target} (h : e.HasType target) :
    e.FitsInside := by
  induction h with
  | var | int | float => exact List.forall_mem_singleton.2 trivial
  | toFloat ha ih => exact fitsInside_toFloat.2 ⟨ha.kind?_eq, ih⟩
  | toInt ha ih => exact fitsInside_toInt.2 ⟨ha.kind?_eq, ih⟩
  | unary op ha ih => exact fitsInside_unary.2 ⟨ha.kind?_eq, ih⟩
  | binary op _ _ iha ihb => exact fitsInside_binary.2 ⟨iha, ihb⟩
  | vec2 _ _ iha ihb => exact fitsInside_vec2.2 ⟨iha, ihb⟩
  | vec3 _ _ _ iha ihb ihc => exact fitsInside_vec3.2 ⟨iha, ihb, ihc⟩
  | vec4 _ _ _ _ iha ihb ihc ihd => exact fitsInside_vec4.2 ⟨iha, ihb, ihc, ihd⟩

/-- Different targets stand for different kinds. -/
theorem eq_of_kind {t t' : Target} (h : some t.kind = some t'.kind) : t' = t := by
  cases t <;> cases t' <;> first | rfl | cases h

/-- An expression whose static kind is a target, and inside which everything fits, is of that
    type. -/
theorem hasType_of_kind? {e : Expr} {t : Target} (hkind : e.kind? = some t.kind)
    (hfits : e.FitsInside) : e.HasType t := by
  induction e generalizing t with
  | var axis =>
      obtain rfl := eq_of_kind (t := .float) hkind
      exact .var axis
  | int n =>
      obtain rfl := eq_of_kind (t := .int) hkind
      exact .int n
  | float x =>
      obtain rfl := eq_of_kind (t := .float) hkind
      exact .float x
  | toFloat a ih =>
      -- The static kind says nothing about the source, the fit does.
      obtain rfl := eq_of_kind (t := .float) hkind
      obtain ⟨ha, hinside⟩ := fitsInside_toFloat.1 hfits
      exact .toFloat (ih (t := .int) ha hinside)
  | toInt a ih =>
      obtain rfl := eq_of_kind (t := .int) hkind
      obtain ⟨ha, hinside⟩ := fitsInside_toInt.1 hfits
      exact .toInt (ih (t := .float) ha hinside)
  | unary op a ih =>
      obtain rfl := eq_of_kind (t := .float) hkind
      obtain ⟨ha, hinside⟩ := fitsInside_unary.1 hfits
      exact .unary op (ih (t := .float) ha hinside)
  | binary op a b iha ihb =>
      obtain ⟨⟨ha, hb⟩, hkind⟩ := Option.ite_none_right_eq_some.1 hkind
      obtain rfl := eq_of_kind (t := .float) hkind
      obtain ⟨hina, hinb⟩ := fitsInside_binary.1 hfits
      exact .binary op (iha (t := .float) ha hina) (ihb (t := .float) hb hinb)
  | vec2 x y ihx ihy =>
      obtain ⟨⟨hx, hy⟩, hkind⟩ := Option.ite_none_right_eq_some.1 hkind
      obtain rfl := eq_of_kind (t := .vec2) hkind
      obtain ⟨hinx, hiny⟩ := fitsInside_vec2.1 hfits
      exact .vec2 (ihx (t := .float) hx hinx) (ihy (t := .float) hy hiny)
  | vec3 x y z ihx ihy ihz =>
      obtain ⟨⟨hx, hy, hz⟩, hkind⟩ := Option.ite_none_right_eq_some.1 hkind
      obtain rfl := eq_of_kind (t := .vec3) hkind
      obtain ⟨hinx, hiny, hinz⟩ := fitsInside_vec3.1 hfits
      exact .vec3 (ihx (t := .float) hx hinx) (ihy (t := .float) hy hiny)
        (ihz (t := .float) hz hinz)
  | vec4 x y z w ihx ihy ihz ihw =>
      obtain ⟨⟨hx, hy, hz, hw⟩, hkind⟩ := Option.ite_none_right_eq_some.1 hkind
      obtain rfl := eq_of_kind (t := .vec4) hkind
      obtain ⟨hinx, hiny, hinz, hinw⟩ := fitsInside_vec4.1 hfits
      exact .vec4 (ihx (t := .float) hx hinx) (ihy (t := .float) hy hiny)
        (ihz (t := .float) hz hinz) (ihw (t := .float) hw hinw)

/-- **Strict typing is the static kind together with the local condition.** -/
theorem hasType_iff (e : Expr) (target : Target) :
    e.HasType target ↔ e.kind? = some target.kind ∧ e.FitsInside :=
  ⟨fun h => ⟨h.kind?_eq, h.fitsInside⟩, fun h => hasType_of_kind? h.1 h.2⟩

/-! ## Lowering -/

/-- An expression fails to compile in one way only, which names the target and the static kind. -/
theorem compile_eq_error_iff {e : Expr} {target : Target} {err : RenderError} :
    e.compile target = .error err ↔
      ¬ e.HasType target ∧ err = .lowering target.kind e.kind? := by
  rw [← e.compile_ok_iff_hasType target]
  unfold compile
  cases e.lower target with
  | some field => simp
  | none => simp [eq_comm]

/-- **How far the static kind decides lowering.** An expression compiles to a target exactly if the
    target is its static kind and, at every expression inside it, a conversion or function finds
    directly below it the kind it asks for. So what compiles has the target as its kind; without
    conversions and functions the kind alone decides; and the error that names the target as the
    kind that was found occurs exactly when the kind is right and some conversion or function inside
    does not fit. -/
theorem compile_iff_kind (e : Expr) (target : Target) :
    ((∃ field, e.compile target = .ok field) ↔
      e.kind? = some target.kind ∧ ∀ n ∈ e.nodes, n.Fits) ∧
    (∀ field, e.compile target = .ok field → e.kind? = some target.kind) ∧
    ((∀ n ∈ e.nodes, n.isBlind = false) →
      ((∃ field, e.compile target = .ok field) ↔ e.kind? = some target.kind)) ∧
    (e.compile target = .error (.lowering target.kind (some target.kind)) ↔
      e.kind? = some target.kind ∧ ∃ n ∈ e.nodes, ¬ n.Fits) := by
  have hiff : (∃ field, e.compile target = .ok field) ↔
      e.kind? = some target.kind ∧ ∀ n ∈ e.nodes, n.Fits :=
    (e.compile_ok_iff_hasType target).trans (e.hasType_iff target)
  refine ⟨hiff, fun field h => (hiff.1 ⟨field, h⟩).1, fun hplain => ?_, ?_⟩
  · have hfits : ∀ n ∈ e.nodes, n.Fits := fun n hn => fits_of_isBlind_eq_false (hplain n hn)
    exact hiff.trans (and_iff_left hfits)
  · rw [compile_eq_error_iff, RenderError.lowering.injEq, hasType_iff]
    constructor
    · rintro ⟨hfails, -, hkind⟩
      obtain ⟨n, hn⟩ := Classical.not_forall.1 fun hall => hfails ⟨hkind.symm, hall⟩
      exact ⟨hkind.symm, n, Classical.not_imp.1 hn⟩
    · rintro ⟨hkind, n, hn, hmisfit⟩
      exact ⟨fun h => hmisfit (h.2 n hn), rfl, hkind.symm⟩

/-- A coordinate made a number once more looks like a number and does not compile. -/
example : (toFloat (var .u)).compile .float = .error (.lowering .float (some .float)) := rfl

end Relief.Expr
