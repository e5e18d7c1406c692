import Relief.Proofs.Exactness
import Relief.Proofs.Semantics
import Relief.Preset

set_option autoImplicit false

/-! # Ranges: what a field can reach over the unit square

Heights are drawn for a range, and a field that leaves it is cut off. Which heights a field can take
is told by its expression: `Expr.HasRange` gives a range to an expression from the ranges of its
parts, with the operations themselves to compute the ends, since rounding keeps the order of the
exact results. It is sound at every point of the unit square (`Expr.HasRange.sound`), for every
trigonometric library whose sines and cosines lie between -1 and 1. A number times itself has a
range of its own, because it is not negative. With that, every height preset has the range from 0
to 1 (`HeightPreset.hasRange`). The terraces are computed without any rounding, so they are known
exactly (`HeightPreset.value_terrace`). -/

namespace Relief

namespace Binary32

open Binary

variable {x y low high a b c d : Float32}

/-! ## Numbers between numbers -/

/-- The number `x` lies between two finite numbers. -/
structure Between (low high x : Float32) : Prop where
  isFinite_low : low.isFinite = true
  isFinite_high : high.isFinite = true
  ge : low ≤ x
  le : x ≤ high

protected theorem le_trans {z : Float32} (h : x ≤ y) (h' : y ≤ z) : x ≤ z := by
  obtain ⟨⟨hx, -⟩, hle⟩ := le_iff.1 h
  obtain ⟨⟨-, hz⟩, hle'⟩ := le_iff.1 h'
  exact le_iff.2 ⟨⟨hx, hz⟩, hle.trans hle'⟩

namespace Between

theorem value_ge (h : Between low high x) : value low ≤ value x := (le_iff.1 h.ge).2

theorem value_le (h : Between low high x) : value x ≤ value high := (le_iff.1 h.le).2

theorem isFinite (h : Between low high x) : x.isFinite = true :=
  isFinite_of_between h.isFinite_low h.isFinite_high (le_iff.1 h.ge).1.2 h.value_ge h.value_le

theorem self (hx : x.isFinite = true) : Between x x x :=
  have hle : x ≤ x := le_iff.2 ⟨⟨isNaN_of_isFinite hx, isNaN_of_isFinite hx⟩, le_rfl⟩
  ⟨hx, hx, hle, hle⟩

/-! ## Operations between numbers -/

theorem add (hx : Between a b x) (hy : Between c d y) : a + c ≤ x + y ∧ x + y ≤ b + d := by
  have hsum := is_add hx.isFinite hy.isFinite
  exact ⟨(is_add hx.isFinite_low hy.isFinite_low).le hsum (add_le_add hx.value_ge hy.value_ge),
    hsum.le (is_add hx.isFinite_high hy.isFinite_high) (add_le_add hx.value_le hy.value_le)⟩

theorem sub (hx : Between a b x) (hy : Between c d y) : a - d ≤ x - y ∧ x - y ≤ b - c := by
  have hdifference := is_sub hx.isFinite hy.isFinite
  exact ⟨(is_sub hx.isFinite_low hy.isFinite_high).le hdifference
      (sub_le_sub hx.value_ge hy.value_le),
    hdifference.le (is_sub hx.isFinite_high hy.isFinite_low) (sub_le_sub hx.value_le hy.value_ge)⟩

/-- A product is no less than some product of ends. -/
theorem exists_corner_le {a b c d x y : ℚ} (hax : a ≤ x) (hxb : x ≤ b) (hcy : c ≤ y) (hyd : y ≤ d) :
    ∃ p q, (p = a ∨ p = b) ∧ (q = c ∨ q = d) ∧ p * q ≤ x * y := by
  obtain ⟨p, hp, hpy⟩ : ∃ p, (p = a ∨ p = b) ∧ p * y ≤ x * y := by
    obtain hy | hy := le_total 0 y
    · exact ⟨a, .inl rfl, mul_le_mul_of_nonneg_right hax hy⟩
    · exact ⟨b, .inr rfl, mul_le_mul_of_nonpos_right hxb hy⟩
  obtain hp0 | hp0 := le_total 0 p
  · exact ⟨p, c, hp, .inl rfl, (mul_le_mul_of_nonneg_left hcy hp0).trans hpy⟩
  · exact ⟨p, d, hp, .inr rfl, (mul_le_mul_of_nonpos_left hyd hp0).trans hpy⟩

theorem exists_le_corner {a b c d x y : ℚ} (hax : a ≤ x) (hxb : x ≤ b) (hcy : c ≤ y) (hyd : y ≤ d) :
    ∃ p q, (p = a ∨ p = b) ∧ (q = c ∨ q = d) ∧ x * y ≤ p * q := by
  obtain ⟨p, q, hp, hq, hle⟩ := exists_corner_le (neg_le_neg hxb) (neg_le_neg hax) hcy hyd
  refine ⟨-p, q, hp.symm.imp neg_eq_iff_eq_neg.2 neg_eq_iff_eq_neg.2, hq, ?_⟩
  linarith

theorem exists_end {v : ℚ} (hx : Between a b x) (hv : v = value a ∨ v = value b) :
    ∃ p ∈ [a, b], p.isFinite = true ∧ v = value p := by
  obtain rfl | rfl := hv
  · exact ⟨a, .head _, hx.isFinite_low, rfl⟩
  · exact ⟨b, .tail _ (.head _), hx.isFinite_high, rfl⟩

/-- A product lies between the products of ends. -/
theorem mul (hx : Between a b x) (hy : Between c d y) :
    (∃ p ∈ [a, b], ∃ q ∈ [c, d], p * q ≤ x * y) ∧ ∃ p ∈ [a, b], ∃ q ∈ [c, d], x * y ≤ p * q := by
  have hproduct := is_mul hx.isFinite hy.isFinite
  constructor
  · obtain ⟨v, w, hv, hw, hle⟩ :=
      exists_corner_le hx.value_ge hx.value_le hy.value_ge hy.value_le
    obtain ⟨p, hp, hpfinite, rfl⟩ := hx.exists_end hv
    obtain ⟨q, hq, hqfinite, rfl⟩ := hy.exists_end hw
    exact ⟨p, hp, q, hq, (is_mul hpfinite hqfinite).le hproduct hle⟩
  · obtain ⟨v, w, hv, hw, hle⟩ :=
      exists_le_corner hx.value_ge hx.value_le hy.value_ge hy.value_le
    obtain ⟨p, hp, hpfinite, rfl⟩ := hx.exists_end hv
    obtain ⟨q, hq, hqfinite, rfl⟩ := hy.exists_end hw
    exact ⟨p, hp, q, hq, hproduct.le (is_mul hpfinite hqfinite) hle⟩

/-- A square is not negative, and no greater than the square of an end. -/
theorem square (hx : Between a b x) : zero ≤ x * x ∧ ∃ p ∈ [a, b], x * x ≤ p * p := by
  have hsquare := is_mul hx.isFinite hx.isFinite
  refine ⟨hsquare.nonneg (mul_self_nonneg _), ?_⟩
  have hbound {p : Float32} (hp : p.isFinite = true) (hle : |value x| ≤ |value p|) :
      x * x ≤ p * p :=
    hsquare.le (is_mul hp hp) (abs_le_iff_mul_self_le.1 hle)
  obtain hle | hle := le_max_iff.1 (abs_le_max_abs_abs hx.value_ge hx.value_le)
  · exact ⟨a, .head _, hbound hx.isFinite_low hle⟩
  · exact ⟨b, .tail _ (.head _), hbound hx.isFinite_high hle⟩

theorem div (hx : Between a b x) (hd : d.isFinite = true) (hpos : zero < d) :
    a / d ≤ x / d ∧ x / d ≤ b / d := by
  have hpos' : 0 < value d := (lt_iff_value.1 hpos).2
  exact ⟨div_le_div_right hx.ge hd hpos', div_le_div_right hx.le hd hpos'⟩

/-- Numbers keep their order when they lose their fractions, as long as their whole parts fit. -/
theorem whole (hx : Between a b x) (ha : zero ≤ a) (hb : b < ofSize (2 ^ 31)) :
    ofInt (toInt a) ≤ ofInt (toInt x) ∧ ofInt (toInt x) ≤ ofInt (toInt b) := by
  have htop : value (ofSize (2 ^ 31)) = 2 ^ 31 := by
    show ((2 ^ 23 : ℕ) : ℚ) * 2 ^ (8 : ℤ) = 2 ^ 31
    norm_num
  have ha' : 0 ≤ value a := (le_iff.1 ha).2
  have hb' : value b < 2 ^ 31 := htop ▸ (lt_iff_value.1 hb).2
  have hmono {p q : Float32} (hp : 0 ≤ value p) (hle : value p ≤ value q) (hq : value q < 2 ^ 31) :
      ofInt (toInt p) ≤ ofInt (toInt q) := by
    have hfits : Nat.floor (value q) < 2 ^ 31 := by
      rw [Nat.floor_lt (hp.trans hle)]
      exact_mod_cast hq
    have hfloor := Nat.floor_mono hle
    rw [ofInt_toInt hp (hle.trans_lt hq), ofInt_toInt (hp.trans hle) hq]
    exact (is_ofSize (by omega)).le (is_ofSize (by omega)) (Nat.cast_le.2 hfloor)
  exact ⟨hmono ha' hx.value_ge (hx.value_le.trans_lt hb'),
    hmono (ha'.trans hx.value_ge) hx.value_le hb'⟩

end Between

end Binary32

/-! ## Ranges of expressions -/

open Binary32

/-- A trigonometric library keeps the sine and the cosine of finite numbers between -1 and 1. -/
def Trigonometry.Bounded (trig : Trigonometry) : Prop :=
  ∀ x : Float32, x.isFinite = true →
    (-one ≤ trig.sin x ∧ trig.sin x ≤ one) ∧ -one ≤ trig.cos x ∧ trig.cos x ≤ one

/-- Both coordinates lie between 0 and 1. -/
def Coords.InSquare (c : Coords) : Prop :=
  ∀ axis, zero ≤ c.along axis ∧ c.along axis ≤ one

namespace Expr

/-- `e.HasRange low high` gives the expression `e` the range from `low` to `high`. -/
inductive HasRange : Expr → Float32 → Float32 → Prop where
  | var (axis : Axis) : HasRange (.var axis) zero one
  | float {x : Float32} : x.isFinite = true → HasRange (.float x) x x
  | sin {e : Expr} {a b : Float32} : HasRange e a b → HasRange (.unary .sin e) (-one) one
  | cos {e : Expr} {a b : Float32} : HasRange e a b → HasRange (.unary .cos e) (-one) one
  | add {e f : Expr} {a b c d : Float32} :
      HasRange e a b → HasRange f c d → (a + c).isFinite = true → (b + d).isFinite = true →
      HasRange (.binary .add e f) (a + c) (b + d)
  | sub {e f : Expr} {a b c d : Float32} :
      HasRange e a b → HasRange f c d → (a - d).isFinite = true → (b - c).isFinite = true →
      HasRange (.binary .sub e f) (a - d) (b - c)
  /-- The greatest and the least product are products of ends, but which ones depends on signs. -/
  | mul {e f : Expr} {a b c d low high : Float32} :
      HasRange e a b → HasRange f c d → (∀ p ∈ [a, b], ∀ q ∈ [c, d], low ≤ p * q ∧ p * q ≤ high) →
      low.isFinite = true → high.isFinite = true → HasRange (.binary .mul e f) low high
  | square {e : Expr} {a b high : Float32} :
      HasRange e a b → (∀ p ∈ [a, b], p * p ≤ high) → high.isFinite = true →
      HasRange (.binary .mul e e) zero high
  | div {e : Expr} {a b d : Float32} :
      HasRange e a b → d.isFinite = true → zero < d → (a / d).isFinite = true →
      (b / d).isFinite = true → HasRange (.binary .div e (.float d)) (a / d) (b / d)
  | whole {e : Expr} {a b : Float32} :
      HasRange e a b → zero ≤ a → b < ofSize (2 ^ 31) → (ofInt (Binary32.toInt a)).isFinite = true →
      (ofInt (Binary32.toInt b)).isFinite = true →
      HasRange (.toFloat (.toInt e)) (ofInt (Binary32.toInt a)) (ofInt (Binary32.toInt b))
  | weaken {e : Expr} {a b low high : Float32} :
      HasRange e a b → low ≤ a → b ≤ high → low.isFinite = true → high.isFinite = true →
      HasRange e low high

variable {trig : Trigonometry} {c : Coords} {e : Expr} {low high x : Float32}

/-- **Ranges are sound**: in the unit square the value of an expression is in its range. -/
theorem HasRange.sound (h : e.HasRange low high) (htrig : trig.Bounded) (hc : c.InSquare)
    (hx : e.Evaluates trig c (.float x)) : Between low high x := by
  induction h generalizing x with
  | var axis =>
      cases hx
      exact ⟨rfl, rfl, (hc axis).1, (hc axis).2⟩
  | float hfinite =>
      cases hx
      exact .self hfinite
  | sin _ ih =>
      cases hx with
      | unary _ ha =>
          obtain ⟨⟨hge, hle⟩, -⟩ := htrig _ (ih ha).isFinite
          exact ⟨rfl, rfl, hge, hle⟩
  | cos _ ih =>
      cases hx with
      | unary _ ha =>
          obtain ⟨-, hge, hle⟩ := htrig _ (ih ha).isFinite
          exact ⟨rfl, rfl, hge, hle⟩
  | add _ _ hlow hhigh ih ih' =>
      cases hx with
      | binary _ ha hb =>
          obtain ⟨hge, hle⟩ := (ih ha).add (ih' hb)
          exact ⟨hlow, hhigh, hge, hle⟩
  | sub _ _ hlow hhigh ih ih' =>
      cases hx with
      | binary _ ha hb =>
          obtain ⟨hge, hle⟩ := (ih ha).sub (ih' hb)
          exact ⟨hlow, hhigh, hge, hle⟩
  | mul _ _ hends hlow hhigh ih ih' =>
      cases hx with
      | binary _ ha hb =>
          obtain ⟨⟨p, hp, q, hq, hge⟩, p', hp', q', hq', hle⟩ := (ih ha).mul (ih' hb)
          exact ⟨hlow, hhigh, Binary32.le_trans (hends p hp q hq).1 hge,
            Binary32.le_trans hle (hends p' hp' q' hq').2⟩
  | square _ hends hhigh ih =>
      cases hx with
      | binary _ ha hb =>
          -- both factors are the one value of the expression
          cases ha.unique hb
          obtain ⟨hge, p, hp, hle⟩ := (ih ha).square
          exact ⟨rfl, hhigh, hge, Binary32.le_trans hle (hends p hp)⟩
  | div _ hd hpos hlow hhigh ih =>
      cases hx with
      | binary _ ha hb =>
          cases hb
          obtain ⟨hge, hle⟩ := (ih ha).div hd hpos
          exact ⟨hlow, hhigh, hge, hle⟩
  | whole _ ha hb hlow hhigh ih =>
      cases hx with
      | toFloat hn =>
          cases hn with
          | toInt hy =>
              obtain ⟨hge, hle⟩ := (ih hy).whole ha hb
              exact ⟨hlow, hhigh, hge, hle⟩
  | weaken _ hlow hhigh hfinite hfinite' ih =>
      have hbetween := ih hx
      exact ⟨hfinite, hfinite', Binary32.le_trans hlow hbetween.ge,
        Binary32.le_trans hbetween.le hhigh⟩

end Expr

namespace HeightPreset

/-! ## The presets -/

theorem hasRange_literal {n : ℕ} (h : (ofSize n).isFinite = true) :
    (literal n).HasRange (ofSize n) (ofSize n) :=
  .float h

theorem hasRange_half : half.HasRange Binary32.half Binary32.half := .float rfl

/-- **Every height preset has the range from 0 to 1.** -/
theorem hasRange (preset : HeightPreset) : preset.expr.HasRange zero one := by
  cases preset with
  | flat => exact .weaken (hasRange_literal rfl) (by decide) (by decide) rfl rfl
  | gradientU => exact .var .u
  | gradientV => exact .var .v
  | ripple =>
      have hangle (axis : Axis) :
          Expr.HasRange (.binary .mul (.var axis) (literal 20)) zero (ofSize 20) :=
        .mul (.var axis) (hasRange_literal rfl) (by decide +kernel) rfl rfl
      have hwaves := Expr.HasRange.add (.sin (hangle .u)) (.cos (hangle .v)) rfl rfl
      have hscaled : Expr.HasRange (.binary .mul quarter _) (-Binary32.half) Binary32.half :=
        .mul (.float rfl) hwaves (by decide +kernel) rfl rfl
      exact .weaken (.add hasRange_half hscaled rfl rfl) (by decide +kernel) (by decide +kernel)
        rfl rfl
  | dome =>
      have hmoved (axis : Axis) := Expr.HasRange.sub (.var axis) hasRange_half rfl rfl
      have hsquared (axis : Axis) :
          Expr.HasRange (.binary .mul _ _) zero (Binary32.half * Binary32.half) :=
        .square (hmoved axis) (by decide +kernel) rfl
      have hsum := Expr.HasRange.add (hsquared .u) (hsquared .v) rfl rfl
      have hdouble : Expr.HasRange (.binary .mul (literal 2) _) zero one :=
        .mul (hasRange_literal rfl) hsum (by decide +kernel) rfl rfl
      exact .weaken (.sub (hasRange_literal rfl) hdouble rfl rfl) (by decide +kernel)
        (by decide +kernel) rfl rfl
  | terraces =>
      have hscaled : Expr.HasRange (.binary .mul (.var .u) (literal 8)) zero (ofSize 8) :=
        .mul (.var .u) (hasRange_literal rfl) (by decide +kernel) rfl rfl
      have hstep := Expr.HasRange.whole hscaled (by decide +kernel) (by decide +kernel) rfl rfl
      exact .weaken (.div hstep rfl (by decide +kernel) rfl rfl) (by decide +kernel)
        (by decide +kernel) rfl rfl

/-! ## Terraces -/

/-- The height of a terrace at a place along the first axis. -/
def terrace (u : Float32) : Float32 :=
  ofInt (toInt (u * ofSize 8)) / ofSize 8

theorem lowerWith_terraces (trig : Trigonometry) :
    terraces.expr.lowerWith trig .float = some fun c => terrace c.u := rfl

/-- Eight times a number up to 1 is in the format. -/
theorem value_mul_eight {x : Float32} (hx : Between zero one x) :
    value (x * ofSize 8) = 8 * value x := by
  have hproduct := is_mul hx.isFinite (isFinite_ofSize (n := 8) (by decide))
  rw [value_ofSize (n := 8) (by decide), mul_comm, Nat.cast_ofNat] at hproduct
  obtain h0 | hpos := (value_zero ▸ hx.value_ge).eq_or_lt
  · rw [← h0, mul_zero] at hproduct ⊢
    exact hproduct.isRounding.zero rfl
  · obtain ⟨m, e, hm, -, hvalue⟩ := exists_canonical hx.isFinite hpos
    have hcount : (1 : ℚ) ≤ m := by exact_mod_cast hm.pos
    have hle : (m * 2 ^ e : ℚ) ≤ 1 := by
      rw [← hvalue, ← value_one]
      exact hx.value_le
    have htop : e ≤ 0 := by
      by_contra! he
      have hpow : (1 : ℚ) < 2 ^ e := one_lt_zpow₀ one_lt_two he
      exact hle.not_gt (hpow.trans_le (le_mul_of_one_le_left (by positivity) hcount))
    have hleast : -149 ≤ e := hm.least
    have hscaled : (8 : ℚ) * value x = m * 2 ^ (e + 3) := by
      rw [hvalue, zpow_add₀ two_ne_zero]
      norm_num
      ring
    rw [hscaled] at hproduct ⊢
    exact hproduct.value_eq_of_lt hm.lt (by omega) (by omega)

/-- A terrace is computed without rounding. -/
theorem value_terrace {u : Float32} (hu : Between zero one u) :
    (terrace u).isNaN = false ∧ value (terrace u) = Nat.floor (8 * value u) / 8 := by
  have hscaled := value_mul_eight hu
  have hge := value_zero ▸ hu.value_ge
  have hle := value_one ▸ hu.value_le
  have hsteps : Nat.floor (8 * value u) ≤ 8 := Nat.floor_le_of_le (by push_cast; linarith)
  have hstep : terrace u = ofSize (Nat.floor (8 * value u)) / ofSize 8 := by
    rw [terrace, ofInt_toInt (by linarith) (by linarith), hscaled]
  have height : value (ofSize 8) = 8 := value_ofSize (by decide)
  have hquotient := is_div (isFinite_ofSize (n := Nat.floor (8 * value u)) (by omega))
    (isFinite_ofSize (n := 8) (by decide)) (by rw [height]; norm_num)
  have heighth : (Nat.floor (8 * value u) / 8 : ℚ) = Nat.floor (8 * value u) * 2 ^ (-3 : ℤ) := by
    rw [div_eq_mul_inv]
    norm_num
  rw [value_ofSize (n := Nat.floor (8 * value u)) (by omega), height, heighth, ← hstep] at hquotient
  exact ⟨hquotient.isNaN,
    (hquotient.value_eq_of_lt (by omega) (by decide) (by decide)).trans heighth.symm⟩

theorem terrace_le_terrace {u u' : Float32} (hu : Between zero one u) (hu' : Between zero one u')
    (hle : u ≤ u') : terrace u ≤ terrace u' := by
  obtain ⟨hnan, hvalue⟩ := value_terrace hu
  obtain ⟨hnan', hvalue'⟩ := value_terrace hu'
  rw [le_iff, hvalue, hvalue']
  have hscaled : 8 * value u ≤ 8 * value u' := by linarith [(le_iff.1 hle).2]
  have hfloor := Nat.floor_mono hscaled
  exact ⟨⟨hnan, hnan'⟩, by gcongr⟩

/-! ## The unit square -/

/-- **The heights of the presets fill no more than the range from 0 to 1.** Every preset lowers to a
    field of numbers, and over the unit square the field stays between 0 and 1 after all its
    roundings, with any library that keeps sines and cosines between -1 and 1. The terraces depend
    on the first coordinate only, never fall along it, and are its eighths rounded down. -/
theorem field_between (trig : Trigonometry) (htrig : trig.Bounded) :
    (∀ preset : HeightPreset, ∃ field, preset.expr.lowerWith trig .float = some field ∧
      ∀ c : Coords, c.InSquare → zero ≤ field c ∧ field c ≤ one) ∧
    ∃ field, terraces.expr.lowerWith trig .float = some field ∧
      (∀ c c' : Coords, c.u = c'.u → field c = field c') ∧
      (∀ c c' : Coords, c.InSquare → c'.InSquare → c.u ≤ c'.u → field c ≤ field c') ∧
      ∀ c : Coords, c.InSquare → value (field c) = Nat.floor (8 * value c.u) / 8 := by
  have hinside {c : Coords} (hc : c.InSquare) : Between zero one c.u :=
    ⟨rfl, rfl, (hc .u).1, (hc .u).2⟩
  refine ⟨fun preset => ?_, _, lowerWith_terraces trig, fun c c' h => by rw [h], ?_, ?_⟩
  · obtain ⟨field, hfield⟩ : ∃ field, preset.expr.lowerWith trig .float = some field :=
      preset.hasType.lowers
    refine ⟨field, hfield, fun c hc => ?_⟩
    have hbetween := preset.hasRange.sound htrig hc ((Expr.means_of_lowerWith hfield).evaluates c)
    exact ⟨hbetween.ge, hbetween.le⟩
  · exact fun c c' hc hc' hle => terrace_le_terrace (hinside hc) (hinside hc') hle
  · exact fun c hc => (value_terrace (hinside hc)).2

/-- A library that answers every argument as the functions answer zero. -/
def atZero : Trigonometry where
  sin := fun _ => zero
  cos := fun _ => one
  tan := fun _ => zero
  asin := fun _ => zero
  acos := fun _ => Float32.ofBits 0x3fc90fdb
  atan := fun _ => zero

/-- The corner of the unit square, where the ripple has all its angles at zero. -/
theorem field_between_corner : atZero.Bounded ∧ Coords.InSquare ⟨zero, zero⟩ ∧
    ∃ field, ripple.expr.lowerWith atZero .float = some field ∧
      zero ≤ field ⟨zero, zero⟩ ∧ field ⟨zero, zero⟩ ≤ one := by
  have hbounded : atZero.Bounded := by
    intro x _
    show (-one ≤ zero ∧ zero ≤ one) ∧ -one ≤ one ∧ one ≤ one
    decide
  have hcorner : Coords.InSquare ⟨zero, zero⟩ := fun axis => by cases axis <;> decide
  obtain ⟨hpresets, -⟩ := field_between atZero hbounded
  obtain ⟨field, hfield, hbetween⟩ := hpresets ripple
  exact ⟨hbounded, hcorner, field, hfield, hbetween _ hcorner⟩

end HeightPreset

end Relief
