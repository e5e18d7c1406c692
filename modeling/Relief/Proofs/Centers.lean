import Relief.Proofs.Exactness
import Relief.Expr.Lowering

set_option autoImplicit false

/-! # Centres: the coordinates of pixels

A pixel stands for its centre, half a pixel from its edge, measured by the side of the raster. The
place of the pixel, the half that is added, the side and the quotient are all rounded, and for all
that no centre leaves the unit square (`Coords.ofPixel_centered`). The half is what rounding can
lose: from a place of `2 ^ 24` on the numbers are two or more apart, and the centre is the edge of
the pixel. A centre that is rounded up to the whole side is at 1 itself, and no other is, because
two numbers that differ have a quotient of at most the last number before 1
(`Binary32.div_lt_one_iff`). The first raster where it happens is 8388610 pixels wide. -/

namespace Relief

namespace Binary

open Float.Model (Format UnpackedFloat)
open Float.Model.UnpackedFloat

variable {F : Format}

/-- Two numbers that differ do so by a last place of the greater one, or more. -/
theorem Canonical.value_le_of_lt {m m' : ℕ} {e e' : ℤ} (h : Canonical F m e)
    (h' : Canonical F m' e') (hlt : (m * 2 ^ e : ℚ) < m' * 2 ^ e') :
    (m * 2 ^ e * 2 ^ F.mantissaBits : ℚ) ≤ m' * 2 ^ e' * (2 ^ F.mantissaBits - 1) := by
  have htop {m : ℕ} (hm : m < 2 ^ F.mantissaBits) : (m : ℚ) + 1 ≤ 2 ^ F.mantissaBits := by
    exact_mod_cast hm
  have hm := htop h.lt
  have hm' := htop h'.lt
  have hpow : (0 : ℚ) < 2 ^ e := by positivity
  obtain he | rfl | he := lt_trichotomy e e'
  · -- the greater exponent starts where the mantissas of the lesser one end
    have hbits := mantissaBits_eq F
    have hleast := h.least
    have hstart : (2 : ℚ) ^ F.mantissaBits * 2 ^ e ≤ m' * 2 ^ e' := by
      refine le_trans ?_ (le_value_of_full e' (h'.full.resolve_right (by omega)))
      rw [← zpow_natCast, ← zpow_add₀ two_ne_zero]
      exact zpow_le_zpow_right₀ one_le_two (by omega)
    calc (m * 2 ^ e * 2 ^ F.mantissaBits : ℚ)
        = 2 ^ F.mantissaBits * 2 ^ e * m := by ring
      _ ≤ m' * 2 ^ e' * (2 ^ F.mantissaBits - 1) := by gcongr; linarith
  · have hcount : (m : ℚ) ≤ m' - 1 := by
      rw [le_sub_iff_add_le]
      exact_mod_cast lt_of_mul_lt_mul_right hlt hpow.le
    calc (m * 2 ^ e * 2 ^ F.mantissaBits : ℚ)
        ≤ (m' - 1) * 2 ^ e * 2 ^ F.mantissaBits := by gcongr
      _ = (m' * 2 ^ F.mantissaBits - 2 ^ F.mantissaBits) * 2 ^ e := by ring
      _ ≤ (m' * 2 ^ F.mantissaBits - m') * 2 ^ e := by gcongr; linarith
      _ = m' * 2 ^ e * (2 ^ F.mantissaBits - 1) := by ring
  · exact absurd hlt (h'.value_lt_of_lt h he).not_gt

end Binary

namespace Binary32

open Float.Model (Format UnpackedFloat)
open Float.Model.UnpackedFloat
open Binary

variable {x y : Float32} {n k : ℕ}

/-! ## Quotients -/

/-- The last number before 1. -/
def belowOne : Float32 := Float32.ofBits 0x3f7fffff

theorem value_belowOne : value belowOne = 1 - 1 / 2 ^ 24 := by
  show ((2 ^ 24 - 1 : ℕ) : ℚ) * 2 ^ (-24 : ℤ) = 1 - 1 / 2 ^ 24
  norm_num

/-- **A quotient is below 1 exactly when its dividend is below its divisor.** -/
theorem div_lt_one_iff (hx : x.isFinite = true) (hy : y.isFinite = true) (hxpos : 0 < value x)
    (hypos : 0 < value y) : x / y < one ↔ x < y := by
  have hquotient := is_div hx hy hypos.ne'
  have hone : Is one (value one) := is_self rfl
  have hbelow : Is belowOne (value belowOne) := is_self rfl
  rw [lt_iff_value, lt_iff_value]
  constructor
  · rintro ⟨-, hlt⟩
    refine ⟨⟨isNaN_of_isFinite hx, isNaN_of_isFinite hy⟩, ?_⟩
    by_contra! hle
    have hle_one : value one ≤ value x / value y := by
      rwa [value_one, one_le_div hypos]
    exact hlt.not_ge (le_iff.1 (hone.le hquotient hle_one)).2
  · rintro ⟨-, hlt⟩
    refine ⟨⟨hquotient.isNaN, rfl⟩, ?_⟩
    obtain ⟨m, e, hm, -, hvalue⟩ := exists_canonical hx hxpos
    obtain ⟨m', e', hm', -, hvalue'⟩ := exists_canonical hy hypos
    have hgap : value x / value y ≤ value belowOne := by
      rw [hvalue, hvalue'] at hlt ⊢
      have hstep : (m * 2 ^ e * 2 ^ 24 : ℚ) ≤ m' * 2 ^ e' * (2 ^ 24 - 1) :=
        hm.value_le_of_lt hm' hlt
      rw [value_belowOne, div_le_iff₀ hm'.value_pos]
      linarith
    refine (le_iff.1 (hquotient.le hbelow hgap)).2.trans_lt ?_
    rw [value_belowOne, value_one]
    norm_num

theorem div_le_one_of_le (hx : x.isFinite = true) (hy : y.isFinite = true) (hypos : 0 < value y)
    (hle : value x ≤ value y) : x / y ≤ one := by
  have hone : Is one (value one) := is_self rfl
  refine (is_div hx hy hypos.ne').le hone ?_
  rwa [value_one, div_le_one hypos]

/-! ## Halves -/

theorem is_add_half (hn : n < 2 ^ 64) : Is (ofSize n + half) (value (ofSize n) + 1 / 2) := by
  rw [← value_half]
  exact is_add (isFinite_ofSize hn) rfl

theorem value_add_half_pos (hn : n < 2 ^ 64) : 0 < value (ofSize n + half) := by
  have hnonneg := (is_ofSize hn).isRounding.nonneg (Nat.cast_nonneg n)
  have hself : Is half (value half) := is_self rfl
  have hhalf := hself.isRounding.mono (is_add_half hn).isRounding (by linarith [value_half])
  linarith [value_half]

/-- The half is lost where numbers are two or more apart. -/
theorem value_add_half_of_le (hn : n < 2 ^ 64) (hle : 2 ^ 24 ≤ n) :
    value (ofSize n + half) = value (ofSize n) := by
  have hstart : (2 : ℚ) ^ (24 : ℤ) ≤ value (ofSize n) := by
    refine le_trans (le_of_eq ?_) (ofSize_mono hle hn)
    show (2 : ℚ) ^ (24 : ℤ) = (2 ^ 23 : ℕ) * 2 ^ (1 : ℤ)
    norm_num
  have hpos : 0 < value (ofSize n) := lt_of_lt_of_le (by positivity) hstart
  obtain ⟨m, e, hm, he, hvalue⟩ := exists_canonical (isFinite_ofSize hn) hpos
  rw [hvalue] at hstart
  have hexponent : 24 < 24 + e := zpow_two_lt.1 (hstart.trans_lt hm.value_lt)
  have hplace : (2 : ℚ) ≤ 2 ^ e := by
    calc (2 : ℚ) = 2 ^ (1 : ℤ) := (zpow_one 2).symm
      _ ≤ 2 ^ e := zpow_le_zpow_right₀ one_le_two (by omega)
  have hrounds : RoundsTo .binary32 (m * 2 ^ e + 1 / 2) m e := by
    refine hm.roundsTo_of_lt ((lowerEnd_lt _ m e).trans (by linarith)) ?_
    rw [upperEnd_eq, add_mul]
    linarith
  have hpos' : (0 : ℚ) < m * 2 ^ e + 1 / 2 := by linarith [hm.value_pos]
  have hsum := (is_add_half hn).isRounding
  rw [hvalue] at hsum ⊢
  exact hsum.unique ((hrounds.magnitude (by decide) he).isRounding .positive hpos')

/-- A centre is at most the whole side. -/
theorem value_add_half_le (hn : n < k) (hk : k < 2 ^ 64) :
    value (ofSize n + half) ≤ value (ofSize k) := by
  obtain hsmall | hlarge := Nat.lt_or_ge n (2 ^ 24)
  · have hcentre := (is_add_half (hn.trans hk)).isRounding
    rw [value_ofSize hsmall] at hcentre
    refine hcentre.mono (is_ofSize hk).isRounding ?_
    have hnext : (n : ℚ) + 1 ≤ k := by exact_mod_cast hn
    linarith
  · rw [value_add_half_of_le (hn.trans hk) hlarge]
    exact ofSize_mono hn.le hk

/-- Up to `2 ^ 23` the half is kept. -/
theorem value_add_half (hn : n < 2 ^ 23) : value (ofSize n + half) = n + 1 / 2 := by
  have hcentre := is_add_half (n := n) (by omega)
  have hcount : (n : ℚ) + 1 / 2 = (2 * n + 1 : ℕ) * 2 ^ (-1 : ℤ) := by
    push_cast
    rw [zpow_neg_one]
    ring
  rw [value_ofSize (by omega), hcount] at hcentre
  rw [hcentre.value_eq_of_lt (by omega) (by decide) (by decide), hcount]

theorem add_half_lt (hn : n < k) (hk : k ≤ 2 ^ 23 + 1) : ofSize n + half < ofSize k := by
  obtain hlt | hge := Nat.lt_or_ge n (2 ^ 23)
  · rw [lt_iff_value, value_add_half hlt, value_ofSize (by omega)]
    have hnext : (n : ℚ) + 1 ≤ k := by exact_mod_cast hn
    exact ⟨⟨(is_add_half (by omega)).isNaN, (is_ofSize (by omega)).isNaN⟩, by linarith⟩
  · -- the last place is a tie, and the centre goes to the even neighbour, which is below
    obtain rfl : n = 2 ^ 23 := by omega
    obtain rfl : k = 2 ^ 23 + 1 := by omega
    decide +kernel

end Binary32

namespace Coords

open Binary32

/-- What holds of the centre `t` of the sample at place `i` of a side of `n` samples. -/
structure Centered (t : Float32) (i n : ℕ) : Prop where
  nonneg : zero ≤ t
  le_one : t ≤ one
  /-- The far end is left out, unless the centre is rounded up to it. -/
  lt_one_iff : t < one ↔ ofSize i + half < ofSize n
  lt_one_of_le : n ≤ 2 ^ 23 + 1 → t < one

theorem centered {i n : ℕ} (hi : i < n) (hn : n < 2 ^ 64) :
    Centered ((ofSize i + half) / ofSize n) i n := by
  have hle := value_add_half_le hi hn
  have hpos := value_add_half_pos (hi.trans hn)
  have hside := isFinite_ofSize hn
  have hzero : zero.isFinite = true := rfl
  have hcentre : (ofSize i + half).isFinite = true :=
    isFinite_of_between hzero hside (is_add_half (hi.trans hn)).isNaN hpos.le hle
  have hquotient := is_div hcentre hside (hpos.trans_le hle).ne'
  have hlt := div_lt_one_iff hcentre hside hpos (hpos.trans_le hle)
  exact ⟨hquotient.nonneg (div_nonneg hpos.le (hpos.le.trans hle)),
    div_le_one_of_le hcentre hside (hpos.trans_le hle) hle, hlt,
    fun hsmall => hlt.2 (add_half_lt hi hsmall)⟩

/-- **Centres stay in the unit square.** They stay away from its far edges as long as the place with
    its half is rounded to less than the side, and so in every raster of at most 8388609 pixels a
    side. -/
theorem ofPixel_centered (x y width height : ℕ) (hx : x < width) (hy : y < height)
    (hwidth : width < 2 ^ 64) (hheight : height < 2 ^ 64) :
    Centered (ofPixel x y width height).u x width ∧
      Centered (ofPixel x y width height).v y height :=
  ⟨centered hx hwidth, centered hy hheight⟩

/-- The last column of the widest raster that has all its centres inside. -/
theorem ofPixel_centered_last : 8388608 < 8388609 ∧ 0 < 1 ∧
    (ofPixel 8388608 0 8388609 1).u < one ∧ (ofPixel 8388608 0 8388609 1).v < one := by
  obtain ⟨hu, hv⟩ := ofPixel_centered 8388608 0 8388609 1 (by decide) (by decide) (by decide)
    (by decide)
  exact ⟨by decide, by decide, hu.lt_one_of_le (by decide), hv.lt_one_of_le (by decide)⟩

/-- One column more, and the last centre is on the edge. -/
theorem ofPixel_reaches_one : 8388609 < 8388610 ∧ 0 < 1 ∧
    ¬ (ofPixel 8388609 0 8388610 1).u < one := by
  decide +kernel

end Coords

end Relief
