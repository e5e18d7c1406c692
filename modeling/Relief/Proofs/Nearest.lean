import Relief.Proofs.Order

set_option autoImplicit false

/-! # Nearest numbers: what the operations answer

Sums, differences, products and quotients of finite numbers are the exact results, rounded: to the
nearest mantissa of the binade, and to an infinity from the limit on. Rounding never changes the
order of two numbers (`IsRounding.mono`), so an operation that is monotone on the line is monotone
on numbers (`Binary32.le_of_is`). It does not move a number of the format (`IsRounding.unique` with
`Canonical.magnitude`). And it gives an infinity to what is at least half a place above the greatest
finite number (`Magnitude.lt_limit_iff`), which is where a difference of finite numbers stops being
finite. -/

namespace Relief

namespace Binary

open Float.Model (Format UnpackedFloat totalExponent)
open Float.Model.UnpackedFloat

variable {F : Format} {y y' z z' : ℚ}

/-! ## Magnitudes -/

theorem IsNearest.mono {n n' : ℕ} (hn : IsNearest n y) (hn' : IsNearest n' y') (h : y ≤ y') :
    n ≤ n' := by
  by_contra! hlt
  have hnext : (n' : ℚ) + 1 ≤ n := by exact_mod_cast hlt
  -- the greater one can only be nearest to the lesser number if the two are one tie
  obtain rfl : y = y' := by linarith [hn.lower, hn'.upper]
  exact hlt.ne' (hn.unique hn')

theorem InBinade.mono {t t' : ℤ} (ht : InBinade t y) (ht' : InBinade t' y') (h : y ≤ y') :
    t ≤ t' := by
  have := zpow_two_lt.1 ((ht.1.trans h).trans_lt ht'.2)
  omega

theorem targetExponent_mono {t t' : ℤ} (h : t ≤ t') : F.targetExponent t ≤ F.targetExponent t' := by
  simp only [Format.targetExponent]
  omega

/-- `z` is what the positive number `y` is rounded to: the nearest number of last places of its
    binade, and no more than the limit. -/
def Magnitude (F : Format) (y z : ℚ) : Prop :=
  ∃ (t : ℤ) (n : ℕ), InBinade t y ∧ IsNearest n (y / 2 ^ F.targetExponent t) ∧
    z = min (n * 2 ^ F.targetExponent t : ℚ) (limit F)

theorem Magnitude.nonneg (h : Magnitude F y z) : 0 ≤ z := by
  obtain ⟨t, n, -, -, rfl⟩ := h
  exact le_min (by positivity) (limit_pos F).le

/-- **Rounding keeps the order** of positive numbers. -/
theorem Magnitude.mono (h : Magnitude F y z) (h' : Magnitude F y' z') (hle : y ≤ y') : z ≤ z' := by
  obtain ⟨t, n, hbinade, hn, rfl⟩ := h
  obtain ⟨t', n', hbinade', hn', rfl⟩ := h'
  refine min_le_min_right _ ?_
  have hbits := mantissaBits_eq F
  obtain heq | hlt := (targetExponent_mono (F := F) (hbinade.mono hbinade' hle)).eq_or_lt
  · rw [heq] at hn ⊢
    have := hn.mono hn' (by gcongr)
    gcongr
  · -- the greater place starts where the mantissas of the smaller one end
    have htop : F.minExponent + F.mantissaBitsWithoutImplicit < t' := by
      have := minExponent_le F t
      simp only [Format.targetExponent] at hlt this
      omega
    have hcount : (n : ℚ) ≤ (2 ^ F.mantissaBits : ℕ) := by
      exact_mod_cast hn.le_of_lt hbinade.div_lt
    have hstart : ((2 ^ F.mantissaBitsWithoutImplicit : ℕ) : ℚ) ≤ n' := by
      refine Nat.cast_le.2 (hn'.le_of_le ?_)
      rw [le_div_iff₀ (by positivity), two_pow_mul_targetExponent htop]
      exact hbinade'.1
    calc (n : ℚ) * 2 ^ F.targetExponent t
        ≤ (2 ^ F.mantissaBits : ℕ) * 2 ^ F.targetExponent t := by gcongr
      _ = 2 ^ (F.mantissaBits + F.targetExponent t : ℤ) := two_pow_mul_zpow _ _
      _ ≤ 2 ^ (F.mantissaBitsWithoutImplicit + F.targetExponent t' : ℤ) :=
          zpow_le_zpow_right₀ one_le_two (by omega)
      _ = (2 ^ F.mantissaBitsWithoutImplicit : ℕ) * 2 ^ F.targetExponent t' :=
          (two_pow_mul_zpow _ _).symm
      _ ≤ n' * 2 ^ F.targetExponent t' := by gcongr

/-! ## Numbers with a sign -/

/-- `z` is what the number `y` is rounded to. -/
structure IsRounding (F : Format) (y z : ℚ) : Prop where
  pos : 0 < y → Magnitude F y z
  zero : y = 0 → z = 0
  neg : y < 0 → Magnitude F (-y) (-z)

theorem isRounding_zero (F : Format) : IsRounding F 0 0 :=
  ⟨fun h => absurd h (lt_irrefl 0), fun _ => rfl, fun h => absurd h (lt_irrefl 0)⟩

theorem Magnitude.isRounding (s : Sign) (hy : 0 < y) (h : Magnitude F y z) :
    IsRounding F (signed s y) (signed s z) := by
  cases s with
  | positive => exact ⟨fun _ => h, fun h0 => absurd h0 hy.ne', fun h0 => absurd h0 hy.not_gt⟩
  | negative =>
      show IsRounding F (-y) (-z)
      refine ⟨fun h0 => absurd h0 (by linarith), fun h0 => absurd h0 (by linarith), fun _ => ?_⟩
      rwa [neg_neg, neg_neg]

theorem IsRounding.nonneg (h : IsRounding F y z) (hy : 0 ≤ y) : 0 ≤ z := by
  obtain rfl | hpos := hy.eq_or_lt
  · exact (h.zero rfl).ge
  · exact (h.pos hpos).nonneg

theorem IsRounding.nonpos (h : IsRounding F y z) (hy : y ≤ 0) : z ≤ 0 := by
  obtain rfl | hneg := hy.eq_or_lt
  · exact (h.zero rfl).le
  · exact neg_nonneg.1 (h.neg hneg).nonneg

/-- **Rounding keeps the order.** -/
theorem IsRounding.mono (h : IsRounding F y z) (h' : IsRounding F y' z') (hle : y ≤ y') :
    z ≤ z' := by
  obtain hy | hy := lt_or_ge 0 y
  · exact (h.pos hy).mono (h'.pos (hy.trans_le hle)) hle
  obtain hy' | hy' := lt_or_ge y' 0
  · exact neg_le_neg_iff.1 ((h'.neg hy').mono (h.neg (hle.trans_lt hy')) (neg_le_neg hle))
  · exact (h.nonpos hy).trans (h'.nonneg hy')

theorem IsRounding.unique (h : IsRounding F y z) (h' : IsRounding F y z') : z = z' :=
  le_antisymm (h.mono h' le_rfl) (h'.mono h le_rfl)

/-! ## What rounding computes -/

/-- The number `u` is `y` rounded, when it is packed. -/
structure Answers (F : Format) (y : ℚ) (u : UnpackedFloat) : Prop where
  ne_notANumber : unpack F (pack F u) ≠ .notANumber
  isRounding : IsRounding F y (valueOf F (unpack F (pack F u)))

theorem answers_zero (F : Format) (s : Sign) : Answers F 0 (.zero s) := by
  constructor <;> rw [pack, unpack_packedZero]
  · intro h
    cases h
  · exact isRounding_zero F

theorem minExponent_le_topExponent (hbias : 0 < F.exponentBias) :
    F.minExponent ≤ topExponent F := by
  rw [minExponent_eq, topExponent]
  omega

theorem valueOf_pack (hbias : 0 < F.exponentBias) (s : Sign) {m : ℕ} {e : ℤ}
    (hc : Canonical F m e) :
    valueOf F (unpack F (pack F (.finite s m e hc.pos)))
      = signed s (min (m * 2 ^ e) (limit F)) := by
  rw [unpack_pack_canonical s hc]
  by_cases he : e ≤ topExponent F
  · rw [if_pos he, min_eq_left (hc.value_lt_limit he).le]
    rfl
  · rw [if_neg he,
      min_eq_right (hc.limit_le_value (not_le.1 he) (minExponent_le_topExponent hbias))]
    rfl

theorem Rounded.answers (hbias : 0 < F.exponentBias) {s : Sign} {u : UnpackedFloat}
    (h : Rounded F s y u) : Answers F (signed s y) u := by
  obtain ⟨t, n, hbinade, hn, rfl⟩ := h
  have hmagnitude : Magnitude F y (min (n * 2 ^ F.targetExponent t : ℚ) (limit F)) :=
    ⟨t, n, hbinade, hn, rfl⟩
  have hrounding := hmagnitude.isRounding s (lt_of_lt_of_le (by positivity) hbinade.1)
  obtain rfl | hpos := Nat.eq_zero_or_pos n
  · rw [Nat.cast_zero, zero_mul, min_eq_left (limit_pos F).le] at hrounding
    rw [settle, dif_neg (lt_irrefl 0)]
    have hzero : signed s 0 = 0 := by
      cases s
      · exact neg_zero
      · rfl
    rw [hzero] at hrounding
    constructor <;> rw [pack, unpack_packedZero]
    · intro h
      cases h
    · exact hrounding
  · have hfull : 2 ^ F.mantissaBitsWithoutImplicit ≤ n ∨ F.targetExponent t = F.minExponent := by
      by_cases ht : F.minExponent + F.mantissaBitsWithoutImplicit < t
      · refine .inl (hn.le_of_le ?_)
        rw [le_div_iff₀ (by positivity), two_pow_mul_targetExponent ht]
        exact hbinade.1
      · right
        have := mantissaBits_eq F
        simp only [Format.targetExponent]
        omega
    obtain ⟨m, e, hc, hsettle, hvalue⟩ := exists_settle s hpos (hn.le_of_lt hbinade.div_lt)
      (minExponent_le F t) hfull
    rw [hsettle]
    refine ⟨?_, ?_⟩
    · rw [unpack_pack_canonical s hc]
      intro h
      split at h <;> cases h
    · rwa [valueOf_pack hbias s hc, hvalue]

/-- A number of the format is rounded to itself. -/
theorem Canonical.rounded (s : Sign) {m : ℕ} {e : ℤ} (h : Canonical F m e) :
    Rounded F s (m * 2 ^ e) (.finite s m e h.pos) := by
  obtain ⟨u, hu⟩ := exists_rounded (F := F) s h.value_pos
  rwa [← hu.eq_finite h.roundsTo]

theorem RoundsTo.magnitude (hbias : 0 < F.exponentBias) {m : ℕ} {e : ℤ} (h : RoundsTo F y m e)
    (he : e ≤ topExponent F) : Magnitude F y (m * 2 ^ e) := by
  obtain ⟨u, hu⟩ := exists_rounded (F := F) .positive h.value_pos
  have hmagnitude := (hu.answers hbias).isRounding.pos h.value_pos
  rwa [hu.eq_finite h, valueOf_pack hbias _ h.toCanonical, signed,
    min_eq_left (h.value_lt_limit he).le] at hmagnitude

/-- A number of the format is rounded to itself. -/
theorem isRounding_self (hbias : 0 < F.exponentBias) {u : UnpackedFloat} (hu : InFormat F u)
    (hu' : u.isFinite = true) : IsRounding F (valueOf F u) (valueOf F u) := by
  cases u with
  | infinity s => cases hu'
  | notANumber => cases hu'
  | zero s => exact isRounding_zero F
  | finite s m e hm => exact (hu.1.roundsTo.magnitude hbias hu.2).isRounding s hu.1.value_pos

/-! ## Where infinity begins -/

/-- The least number above which rounding gives an infinity: half a place above the greatest finite
    number. -/
def ceiling (F : Format) : ℚ := (2 ^ F.mantissaBits - 1 / 2) * 2 ^ topExponent F

theorem even_two_pow (F : Format) : 2 ^ F.mantissaBits % 2 = 0 := by
  rw [mantissaBits_eq, Nat.pow_succ, Nat.mul_mod_left]

theorem magnitude_ceiling (hbias : 0 < F.exponentBias) : Magnitude F (ceiling F) (limit F) := by
  have hbits := mantissaBits_eq F
  have hleast := minExponent_le_topExponent hbias
  have htarget : F.targetExponent (F.mantissaBits + topExponent F) = topExponent F := by
    simp only [Format.targetExponent]
    omega
  have hone : (1 : ℚ) ≤ 2 ^ F.mantissaBitsWithoutImplicit := one_le_pow₀ one_le_two
  have htwice : (2 : ℚ) ^ F.mantissaBits = 2 * 2 ^ F.mantissaBitsWithoutImplicit := by
    rw [hbits, pow_succ]
    ring
  have hpow (k : ℕ) : (2 : ℚ) ^ (k + topExponent F) = 2 ^ k * 2 ^ topExponent F := by
    rw [zpow_add₀ two_ne_zero, zpow_natCast]
  refine ⟨F.mantissaBits + topExponent F, 2 ^ F.mantissaBits, ⟨?_, ?_⟩, ?_, ?_⟩
  · have hstart : (F.mantissaBits + topExponent F - 1 : ℤ)
        = F.mantissaBitsWithoutImplicit + topExponent F := by omega
    rw [hstart, hpow, ceiling]
    gcongr
    linarith
  · rw [hpow, ceiling]
    gcongr
    linarith
  · rw [htarget, ceiling, mul_div_cancel_right₀ _ (by positivity)]
    exact ⟨by push_cast; exact le_rfl, by push_cast; linarith, fun _ => even_two_pow F⟩
  · rw [htarget, limit, hpow]
    push_cast
    exact (min_self _).symm

/-- **Rounding gives an infinity from half a place above the greatest finite number on.** -/
theorem Magnitude.lt_limit_iff (hbias : 0 < F.exponentBias) (h : Magnitude F y z) :
    z < limit F ↔ y < ceiling F := by
  constructor
  · intro hz
    by_contra! hy
    exact absurd ((magnitude_ceiling hbias).mono h hy) (not_le.2 hz)
  · intro hy
    have hbits := mantissaBits_eq F
    have heven := even_two_pow F
    have hpos := Nat.two_pow_pos F.mantissaBits
    have htop : Canonical F (2 ^ F.mantissaBits - 1) (topExponent F) := by
      have hfull : 2 ^ F.mantissaBitsWithoutImplicit ≤ 2 ^ F.mantissaBits - 1 := by
        have := Nat.two_pow_pos F.mantissaBitsWithoutImplicit
        rw [hbits, Nat.pow_succ]
        omega
      exact ⟨by omega, by omega, minExponent_le_topExponent hbias, .inl hfull⟩
    refine lt_of_le_of_lt ?_ (htop.value_lt_limit le_rfl)
    obtain hle | hlt := le_or_gt y ((2 ^ F.mantissaBits - 1 : ℕ) * 2 ^ topExponent F : ℚ)
    · exact h.mono (htop.roundsTo.magnitude hbias le_rfl) hle
    · have hupper : y < upperEnd (2 ^ F.mantissaBits - 1) (topExponent F) := by
        have hhalf : ((2 ^ F.mantissaBits - 1 : ℕ) : ℚ) + 1 / 2 = 2 ^ F.mantissaBits - 1 / 2 := by
          rw [Nat.cast_sub hpos]
          push_cast
          ring
        rwa [upperEnd_eq, hhalf]
      have hround := htop.roundsTo_of_lt ((lowerEnd_lt F _ _).trans hlt) hupper
      exact h.mono (hround.magnitude hbias le_rfl) le_rfl

/-! ## Operations -/

theorem signed_neg (s : Sign) (a : ℚ) : signed (-s) a = -signed s a := by
  cases s
  · exact (neg_neg a).symm
  · rfl

theorem signed_mul (s s' : Sign) (a b : ℚ) :
    signed s a * signed s' b = signed (s * s') (a * b) := by
  cases s <;> cases s'
  · exact neg_mul_neg a b
  · exact neg_mul a b
  · exact mul_neg a b
  · rfl

theorem signed_div (s s' : Sign) (a b : ℚ) :
    signed s a / signed s' b = signed (s / s') (a / b) := by
  cases s <;> cases s'
  · exact neg_div_neg_eq a b
  · exact neg_div b a
  · exact div_neg a
  · rfl

/-- A number counted in places of a lesser exponent. -/
theorem signed_shiftLeft (s : Sign) (m : ℕ) {e e' : ℤ} (h : e' ≤ e) :
    signed s (m * 2 ^ e) = (s.apply (m <<< (e - e').toNat : ℕ) : ℤ) * 2 ^ e' := by
  obtain ⟨k, rfl⟩ := Int.le.dest h
  have hvalue : (m : ℚ) * 2 ^ (e' + k) = (m <<< (e' + k - e').toNat : ℕ) * 2 ^ e' := by
    rw [add_sub_cancel_left, Int.toNat_natCast, zpow_add₀ two_ne_zero, zpow_natCast,
      Nat.shiftLeft_eq]
    push_cast
    ring
  rw [hvalue]
  cases s
  · simp only [signed, Sign.apply, Int.cast_neg, Int.cast_natCast, neg_mul]
  · rfl

theorem answers_normalize (hbias : 0 < F.exponentBias) (n e : ℤ) (s : Sign) :
    Answers F (n * 2 ^ e) (UnpackedFloat.normalize F n e s) := by
  rw [UnpackedFloat.normalize]
  obtain hn | rfl | hn := lt_trichotomy n 0
  · obtain ⟨k, rfl⟩ : ∃ k : ℕ, n = -k := ⟨(-n).toNat, by omega⟩
    rw [Int.compare_eq_lt.2 hn, neg_neg, Int.toNat_natCast, Int.cast_neg, Int.cast_natCast, neg_mul]
    exact (round_rounded .negative (by omega) e).answers hbias
  · rw [Int.compare_eq_eq.2 rfl, Int.cast_zero, zero_mul]
    exact answers_zero F s
  · obtain ⟨k, rfl⟩ := Int.eq_ofNat_of_zero_le hn.le
    rw [Int.compare_eq_gt.2 hn, Int.toNat_natCast, Int.cast_natCast]
    exact (round_rounded .positive (by omega) e).answers hbias

/-- **A sum of finite numbers is the exact one, rounded.** -/
theorem answers_add (hbias : 0 < F.exponentBias) {u v : UnpackedFloat} (hu : InFormat F u)
    (hv : InFormat F v) (hu' : u.isFinite = true) (hv' : v.isFinite = true) :
    Answers F (valueOf F u + valueOf F v) (UnpackedFloat.add F u v) := by
  cases u with
  | infinity s => cases hu'
  | notANumber => cases hu'
  | zero s =>
      cases v with
      | infinity s' => cases hv'
      | notANumber => cases hv'
      | zero s' =>
          show Answers F (0 + 0) _
          rw [add_zero]
          cases s <;> cases s' <;> exact answers_zero F _
      | finite s' m' e' hm' =>
          show Answers F (0 + signed s' _) (.finite s' m' e' hm')
          rw [zero_add]
          exact (hv.1.rounded s').answers hbias
  | finite s m e hm =>
      cases v with
      | infinity s' => cases hv'
      | notANumber => cases hv'
      | zero s' =>
          show Answers F (signed s _ + 0) (.finite s m e hm)
          rw [add_zero]
          exact (hu.1.rounded s).answers hbias
      | finite s' m' e' hm' =>
          show Answers F (signed s _ + signed s' _)
            (UnpackedFloat.normalize F _ (min e e') .positive)
          rw [signed_shiftLeft s m (min_le_left e e'), signed_shiftLeft s' m' (min_le_right e e'),
            ← add_mul, ← Int.cast_add]
          exact answers_normalize hbias _ _ _

/-- A difference is the sum with the opposite number. -/
theorem sub_eq_add (F : Format) (u v : UnpackedFloat) :
    UnpackedFloat.sub F u v = UnpackedFloat.add F u v.neg := by
  cases u with
  | finite s m e hm =>
      cases v with
      | finite s' m' e' hm' =>
          have happly (n : ℤ) : (-s').apply n = -s'.apply n := by
            cases s'
            · exact (neg_neg n).symm
            · rfl
          show UnpackedFloat.normalize F (_ - _) _ _ = UnpackedFloat.normalize F (_ + _) _ _
          rw [happly, ← sub_eq_add_neg]
      | _ => rfl
  | _ => cases v <;> rfl

theorem valueOf_neg (F : Format) (u : UnpackedFloat) : valueOf F u.neg = -valueOf F u := by
  cases u with
  | infinity s => exact signed_neg s _
  | finite s m e hm => exact signed_neg s _
  | notANumber | zero => exact neg_zero.symm

theorem InFormat.neg {u : UnpackedFloat} (hu : InFormat F u) : InFormat F u.neg := by
  cases u <;> exact hu

/-- **A difference of finite numbers is the exact one, rounded.** -/
theorem answers_sub (hbias : 0 < F.exponentBias) {u v : UnpackedFloat} (hu : InFormat F u)
    (hv : InFormat F v) (hu' : u.isFinite = true) (hv' : v.isFinite = true) :
    Answers F (valueOf F u - valueOf F v) (UnpackedFloat.sub F u v) := by
  have hfinite : v.neg.isFinite = true := by
    cases v <;> exact hv'
  rw [sub_eq_add, sub_eq_add_neg, ← valueOf_neg]
  exact answers_add hbias hu hv.neg hu' hfinite

/-- **A product of finite numbers is the exact one, rounded.** -/
theorem answers_mul (hbias : 0 < F.exponentBias) {u v : UnpackedFloat} (hu : InFormat F u)
    (hv : InFormat F v) (hu' : u.isFinite = true) (hv' : v.isFinite = true) :
    Answers F (valueOf F u * valueOf F v) (UnpackedFloat.mul F u v) := by
  cases u with
  | infinity s => cases hu'
  | notANumber => cases hu'
  | zero s =>
      cases v with
      | infinity s' => cases hv'
      | notANumber => cases hv'
      | zero s' | finite s' m' e' hm' =>
          show Answers F (0 * _) (.zero _)
          rw [zero_mul]
          exact answers_zero F _
  | finite s m e hm =>
      cases v with
      | infinity s' => cases hv'
      | notANumber => cases hv'
      | zero s' =>
          show Answers F (_ * 0) (.zero _)
          rw [mul_zero]
          exact answers_zero F _
      | finite s' m' e' hm' =>
          show Answers F (signed s _ * signed s' _) _
          rw [signed_mul]
          refine (mul_rounded hm hm' ?_).answers hbias
          obtain hfull | he := hu.1.full
          · exact le_targetExponent _ (hfull.trans (Nat.le_mul_of_pos_right _ hm'))
          obtain hfull | he' := hv.1.full
          · exact le_targetExponent _ (hfull.trans (Nat.le_mul_of_pos_left _ hm))
          · -- two numbers without a leading bit meet below the least place
            refine le_trans ?_ (minExponent_le F _)
            rw [he, he', minExponent_eq]
            omega

/-- **A quotient of finite numbers is the exact one, rounded**, unless the divisor is zero. -/
theorem answers_div (hbias : 0 < F.exponentBias) {u v : UnpackedFloat} (hu : InFormat F u)
    (hu' : u.isFinite = true) (hv' : v.isFinite = true) (hv : valueOf F v ≠ 0) :
    Answers F (valueOf F u / valueOf F v) (UnpackedFloat.div F u v) := by
  cases v with
  | infinity s' => cases hv'
  | notANumber => cases hv'
  | zero s' => exact absurd rfl hv
  | finite s' m' e' hm' =>
      cases u with
      | infinity s => cases hu'
      | notANumber => cases hu'
      | zero s =>
          show Answers F (0 / _) (.zero _)
          rw [zero_div]
          exact answers_zero F _
      | finite s m e hm =>
          show Answers F (signed s _ / signed s' _) _
          rw [signed_div]
          exact (div_rounded hm hm').answers hbias

/-! ## Infinities -/

theorem sub_infinity (s : Sign) {v : UnpackedFloat} (hv : v.isFinite = true) :
    UnpackedFloat.sub F (.infinity s) v = .infinity s := by
  cases v with
  | infinity s' => cases hv
  | notANumber => cases hv
  | zero | finite => rfl

theorem eq_finite_of_pos {v : UnpackedFloat} (hv : InFormat F v) (hv' : v.isFinite = true)
    (hpos : 0 < valueOf F v) : ∃ m e hm, v = .finite .positive m e hm := by
  cases v with
  | infinity s => cases hv'
  | notANumber => cases hv'
  | zero s => exact absurd hpos (lt_irrefl 0)
  | finite s m e hm =>
      cases s with
      | negative => exact absurd (neg_pos.1 hpos) hv.1.value_pos.not_gt
      | positive => exact ⟨m, e, hm, rfl⟩

theorem mul_infinity (s : Sign) {v : UnpackedFloat} (hv : InFormat F v) (hv' : v.isFinite = true)
    (hpos : 0 < valueOf F v) : UnpackedFloat.mul F (.infinity s) v = .infinity s := by
  obtain ⟨m, e, hm, rfl⟩ := eq_finite_of_pos hv hv' hpos
  cases s <;> rfl

theorem div_infinity (s : Sign) {v : UnpackedFloat} (hv : InFormat F v) (hv' : v.isFinite = true)
    (hpos : 0 < valueOf F v) : UnpackedFloat.div F (.infinity s) v = .infinity s := by
  obtain ⟨m, e, hm, rfl⟩ := eq_finite_of_pos hv hv' hpos
  cases s <;> rfl

/-! ## The least number -/

/-- Every finite number is a multiple of the least one. -/
theorem valueOf_eq_mul {u : UnpackedFloat} (hu : InFormat F u) (hu' : u.isFinite = true) :
    ∃ k : ℤ, valueOf F u = k * 2 ^ F.minExponent := by
  cases u with
  | infinity s => cases hu'
  | notANumber => cases hu'
  | zero s => exact ⟨0, by rw [Int.cast_zero, zero_mul]; rfl⟩
  | finite s m e hm => exact ⟨_, signed_shiftLeft s m hu.1.least⟩

/-- Two numbers that differ do so by the least number or more. -/
theorem le_valueOf_sub {u v : UnpackedFloat} (hu : InFormat F u) (hv : InFormat F v)
    (hu' : u.isFinite = true) (hv' : v.isFinite = true) (h : valueOf F u < valueOf F v) :
    2 ^ F.minExponent ≤ valueOf F v - valueOf F u := by
  obtain ⟨k, hk⟩ := valueOf_eq_mul hu hu'
  obtain ⟨k', hk'⟩ := valueOf_eq_mul hv hv'
  have hpow : (0 : ℚ) < 2 ^ F.minExponent := by positivity
  rw [hk, hk'] at h ⊢
  have hnext : (k : ℚ) + 1 ≤ k' := by exact_mod_cast lt_of_mul_lt_mul_right h hpow.le
  rw [← sub_mul]
  exact le_mul_of_one_le_left hpow.le (by linarith)

/-- What reaches the least number is not rounded to zero. -/
theorem Magnitude.pos (hbias : 0 < F.exponentBias) (h : Magnitude F y z)
    (hy : 2 ^ F.minExponent ≤ y) : 0 < z := by
  have hleast : Canonical F 1 F.minExponent :=
    ⟨one_pos, Nat.one_lt_two_pow (by rw [mantissaBits_eq]; exact Nat.succ_ne_zero _), le_rfl,
      .inr rfl⟩
  have hself := hleast.roundsTo.magnitude hbias (minExponent_le_topExponent hbias)
  refine hleast.value_pos.trans_le (hself.mono h ?_)
  rwa [Nat.cast_one, one_mul]

end Binary

namespace Binary32

open Float.Model (Format UnpackedFloat)
open Float.Model.UnpackedFloat
open Binary

variable {x x' : Float32} {y y' : ℚ}

/-! ## Single precision -/

/-- The number `x` is `y` rounded. -/
structure Is (x : Float32) (y : ℚ) : Prop where
  isNaN : x.isNaN = false
  isRounding : IsRounding .binary32 y (value x)

theorem is_of_answers {u : UnpackedFloat} (h : Answers .binary32 y u)
    (hx : x.toModel.unpack = unpack .binary32 (pack .binary32 u)) : Is x y := by
  refine ⟨?_, ?_⟩
  · rw [Bool.eq_false_iff, ne_eq, isNaN_iff, hx]
    exact h.ne_notANumber
  · rw [value, hx]
    exact h.isRounding

theorem is_add (hx : x.isFinite = true) (hx' : x'.isFinite = true) :
    Is (x + x') (value x + value x') :=
  is_of_answers (answers_add (by decide) (inFormat x) (inFormat x') hx hx') rfl

theorem is_sub (hx : x.isFinite = true) (hx' : x'.isFinite = true) :
    Is (x - x') (value x - value x') :=
  is_of_answers (answers_sub (by decide) (inFormat x) (inFormat x') hx hx') rfl

theorem is_mul (hx : x.isFinite = true) (hx' : x'.isFinite = true) :
    Is (x * x') (value x * value x') :=
  is_of_answers (answers_mul (by decide) (inFormat x) (inFormat x') hx hx') rfl

theorem is_div (hx : x.isFinite = true) (hx' : x'.isFinite = true) (hne : value x' ≠ 0) :
    Is (x / x') (value x / value x') :=
  is_of_answers (answers_div (by decide) (inFormat x) hx hx' hne) rfl

/-- A number is its own rounding. -/
theorem is_self (hx : x.isFinite = true) : Is x (value x) :=
  ⟨isNaN_of_isFinite hx, isRounding_self (by decide) (inFormat x) hx⟩

/-- What is rounded to a number of the format has its value. -/
theorem Is.value_eq (h : Is x (value x')) (hx' : x'.isFinite = true) : value x = value x' :=
  h.isRounding.unique (is_self hx').isRounding

theorem Is.le (h : Is x y) (h' : Is x' y') (hle : y ≤ y') : x ≤ x' :=
  le_iff.2 ⟨⟨h.isNaN, h'.isNaN⟩, h.isRounding.mono h'.isRounding hle⟩

/-- An operation that is monotone on the line is monotone on numbers, if it leaves the infinities
    where they are. -/
theorem le_of_is {f : Float32 → Float32} {g : ℚ → ℚ} (hg : Monotone g)
    (hf : ∀ x, x.isFinite = true → Is (f x) (g (value x)))
    (hinf : ∀ x s, x.toModel.unpack = .infinity s → (f x).toModel.unpack = .infinity s)
    (h : x ≤ x') : f x ≤ f x' := by
  obtain ⟨⟨hx, hx'⟩, hle⟩ := le_iff.1 h
  have hsame {x : Float32} {s : Sign} (h : x.toModel.unpack = .infinity s) :
      value (f x) = signed s (limit .binary32) := (value_of_infinity (hinf x s h)).2
  have hnan {x : Float32} (hx : x.isNaN = false) : (f x).isNaN = false := by
    obtain ⟨s, hs⟩ | hfinite := infinity_or_isFinite hx
    · exact (value_of_infinity (hinf x s hs)).1
    · exact (hf x hfinite).isNaN
  have hbounds := abs_le.1 (abs_value_le (f x))
  have hbounds' := abs_le.1 (abs_value_le (f x'))
  refine le_iff.2 ⟨⟨hnan hx, hnan hx'⟩, ?_⟩
  obtain ⟨s, hs⟩ | hfinite := infinity_or_isFinite hx <;>
    obtain ⟨s', hs'⟩ | hfinite' := infinity_or_isFinite hx'
  · rwa [hsame hs, hsame hs', ← (value_of_infinity hs).2, ← (value_of_infinity hs').2]
  · cases s with
    | negative =>
        rw [hsame hs]
        exact hbounds'.1
    | positive =>
        -- nothing finite is above the greatest number
        have hlt := (abs_lt.1 ((isFinite_iff hx').1 hfinite')).2
        rw [(value_of_infinity hs).2] at hle
        exact absurd hlt (not_lt.2 hle)
  · cases s' with
    | negative =>
        have hlt := (abs_lt.1 ((isFinite_iff hx).1 hfinite)).1
        rw [(value_of_infinity hs').2] at hle
        exact absurd hlt (not_lt.2 hle)
    | positive =>
        rw [hsame hs']
        exact hbounds.2
  · exact (hf x hfinite).isRounding.mono (hf x' hfinite').isRounding (hg hle)

/-- Taking the same finite number from two numbers keeps their order. -/
theorem sub_le_sub_right (h : x ≤ x') {c : Float32} (hc : c.isFinite = true) : x - c ≤ x' - c := by
  refine le_of_is (f := (· - c)) (g := (· - value c)) (fun a b hab => sub_le_sub hab le_rfl)
    (fun x hx => is_sub hx hc) (fun x s hs => ?_) h
  show unpack .binary32 (pack .binary32 (sub .binary32 x.toModel.unpack c.toModel.unpack)) = _
  rw [hs, sub_infinity s hc]
  exact unpack_packedInfinity s

theorem mul_le_mul_right (h : x ≤ x') {c : Float32} (hc : c.isFinite = true) (hpos : 0 < value c) :
    x * c ≤ x' * c := by
  refine le_of_is (f := (· * c)) (g := (· * value c))
    (fun a b hab => mul_le_mul_of_nonneg_right hab hpos.le) (fun x hx => is_mul hx hc)
    (fun x s hs => ?_) h
  show unpack .binary32 (pack .binary32 (mul .binary32 x.toModel.unpack c.toModel.unpack)) = _
  rw [hs, mul_infinity s (inFormat c) hc hpos]
  exact unpack_packedInfinity s

theorem div_le_div_right (h : x ≤ x') {c : Float32} (hc : c.isFinite = true) (hpos : 0 < value c) :
    x / c ≤ x' / c := by
  refine le_of_is (f := (· / c)) (g := (· / value c))
    (fun a b hab => div_le_div_of_nonneg_right hab hpos.le) (fun x hx => is_div hx hc hpos.ne')
    (fun x s hs => ?_) h
  show unpack .binary32 (pack .binary32 (div .binary32 x.toModel.unpack c.toModel.unpack)) = _
  rw [hs, div_infinity s (inFormat c) hc hpos]
  exact unpack_packedInfinity s

/-- A number and a greater one have a positive difference, however close they are. -/
theorem value_sub_pos (h : x < x') (hx : x.isFinite = true) (hx' : x'.isFinite = true) :
    0 < value (x' - x) := by
  have hleast := le_valueOf_sub (inFormat x) (inFormat x') hx hx' (lt_iff_value.1 h).2
  refine ((is_sub hx' hx).isRounding.pos ?_).pos (by decide) hleast
  exact sub_pos.2 (lt_iff_value.1 h).2

/-! ## Truncation -/

/-- Truncation drops the fraction. -/
theorem roundToInt_eq (s : Sign) (m : ℕ) (e : ℤ) :
    roundToInt s m e = s.apply (Nat.floor (m * 2 ^ e : ℚ)) := by
  show s.apply (ExtendedMantissa.ofMantissaAndAccuracy (m <<< (e - 0).toNat) .exact
    >>> (0 - (e - (e - 0).toNat)).toNat).mantissa = _
  generalize hk : (e - 0).toNat = k
  generalize hj : (0 - (e - k)).toNat = j
  have htells := (tells_shiftLeft m e k).shiftRight j
  have hplace : e - k = -j := by omega
  rw [hplace, zpow_neg, zpow_natCast, div_inv_eq_mul, mul_div_cancel_right₀ _ (by positivity)]
    at htells
  congr 2
  exact ((Nat.floor_eq_iff (by positivity)).2 ⟨htells.mantissa_le, htells.lt_mantissa⟩).symm

theorem floor_signed_negative {y : ℚ} (hy : 0 ≤ y) : Nat.floor (signed .negative y) = 0 :=
  Nat.floor_of_nonpos (neg_nonpos.2 hy)

theorem toNat_roundToInt (s : Sign) (m : ℕ) (e : ℤ) :
    (roundToInt s m e).toNat = Nat.floor (signed s (m * 2 ^ e)) := by
  rw [roundToInt_eq]
  cases s with
  | negative =>
      rw [floor_signed_negative (by positivity), Sign.apply, Int.toNat_of_nonpos (by omega)]
  | positive => rfl

theorem toNat_ofNatClamp (n : ℕ) : (UInt16.ofNatClamp n).toNat = min 65535 n := by
  obtain h | h := Nat.lt_or_ge n UInt16.size
  · rw [UInt16.toNat_ofNatClamp_of_lt h]
    exact (min_eq_right (Nat.le_of_lt_succ h)).symm
  · rw [UInt16.toNat_ofNatClamp_of_le h]
    exact (min_eq_left ((Nat.sub_le _ _).trans h)).symm

/-- **A number is truncated, and held between the ends of sixteen bits.** -/
theorem toNat_toWord (hx : x.isNaN = false) :
    (toWord x).toNat = min 65535 (Nat.floor (value x)) := by
  show (UInt16.ofNatClamp (x.toModel.unpack.toInt 0 65535).toNat).toNat = _
  rw [toNat_ofNatClamp, value]
  have hne := ne_notANumber hx
  cases h : x.toModel.unpack with
  | notANumber => exact absurd h hne
  | zero s =>
      show min 65535 0 = min 65535 (Nat.floor (0 : ℚ))
      rw [Nat.floor_zero]
  | infinity s =>
      cases s with
      | negative =>
          rw [valueOf, floor_signed_negative (limit_pos _).le]
          rfl
      | positive =>
          have hlimit : (65535 : ℕ) ≤ limit .binary32 := by
            show ((65535 : ℕ) : ℚ) ≤ 2 ^ (128 : ℤ)
            norm_num
          rw [valueOf, signed, min_eq_left (Nat.le_floor hlimit)]
          rfl
  | finite s m e hm =>
      show min 65535 (roundToInt s m e).toNat = min 65535 (Nat.floor (signed s (m * 2 ^ e)))
      rw [toNat_roundToInt]

/-- Truncation keeps the order. -/
theorem toWord_le_toWord (h : x ≤ x') : toWord x ≤ toWord x' := by
  obtain ⟨⟨hx, hx'⟩, hle⟩ := le_iff.1 h
  rw [UInt16.le_iff_toNat_le, toNat_toWord hx, toNat_toWord hx']
  exact min_le_min_left _ (Nat.floor_mono hle)

end Binary32

end Relief
