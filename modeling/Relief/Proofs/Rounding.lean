import Relief.Proofs.Packing

set_option autoImplicit false

/-! # Rounding to a binary format

Products, quotients and conversions all end in one step: a mantissa with two residual bits is
shifted to the place of its binade and rounded there. The two bits tell where between two mantissas
the exact result lies (`Tells`), shifting keeps what they tell, and so the result is the nearest
mantissa, ties to even (`roundWithAccuracy_rounded`). From there on only the exact number counts:
whatever lies between the ends that belong to a number is rounded to it (`Rounded.eq_finite`), and
no number moves by more than half a place (`Rounded.exists_near`). -/

namespace Relief.Binary

open Float.Model (Format UnpackedFloat totalExponent)
open Float.Model.UnpackedFloat

/-! ## What the residual bits tell -/

/-- The number at a mantissa and its round bit. -/
def base (em : ExtendedMantissa) : ℚ := em.mantissa + if em.roundBit then 1 / 2 else 0

/-- What a mantissa with its two residual bits says about a number: it is the one at the round
    bit, or beyond it when the sticky bit is set. -/
def Tells (em : ExtendedMantissa) (y : ℚ) : Prop :=
  if em.stickyBit then base em < y ∧ y < base em + 1 / 2 else y = base em

/-- `n` is the whole number nearest to `y`, the even one of two that are equally near. -/
structure IsNearest (n : ℕ) (y : ℚ) : Prop where
  lower : (n : ℚ) - 1 / 2 ≤ y
  upper : y ≤ n + 1 / 2
  even : y = n - 1 / 2 ∨ y = n + 1 / 2 → n % 2 = 0

theorem IsNearest.unique {n k : ℕ} {y : ℚ} (hn : IsNearest n y) (hk : IsNearest k y) : n = k := by
  have hle : n ≤ k + 1 := by
    have : (n : ℚ) ≤ k + 1 := by linarith [hn.lower, hk.upper]
    exact_mod_cast this
  have hge : k ≤ n + 1 := by
    have : (k : ℚ) ≤ n + 1 := by linarith [hk.lower, hn.upper]
    exact_mod_cast this
  -- two neighbours would be equally near, and then both even
  obtain rfl | rfl | rfl : n = k + 1 ∨ k = n + 1 ∨ n = k := by omega
  · have hy : y = k + 1 / 2 := by
      have := hn.lower
      push_cast at this
      linarith [hk.upper]
    have h1 := hn.even (.inl (by push_cast; linarith))
    have h2 := hk.even (.inr hy)
    omega
  · have hy : y = n + 1 / 2 := by
      have := hk.lower
      push_cast at this
      linarith [hn.upper]
    have h1 := hk.even (.inl (by push_cast; linarith))
    have h2 := hn.even (.inr hy)
    omega
  · rfl

theorem base_shiftRightOne (em : ExtendedMantissa) : base em.shiftRightOne = em.mantissa / 2 := by
  have hn : (em.mantissa : ℚ) = 2 * (em.mantissa / 2 : ℕ) + (em.mantissa % 2 : ℕ) := by
    exact_mod_cast (Nat.div_add_mod em.mantissa 2).symm
  obtain h | h := Nat.mod_two_eq_zero_or_one em.mantissa <;>
    simp only [base, ExtendedMantissa.shiftRightOne, h] at hn ⊢ <;> norm_num <;> linarith

theorem Tells.shiftRightOne {em : ExtendedMantissa} {y : ℚ} (h : Tells em y) :
    Tells em.shiftRightOne (y / 2) := by
  have hs : em.shiftRightOne.stickyBit = (em.roundBit || em.stickyBit) := rfl
  rw [Tells, base_shiftRightOne, hs]
  obtain ⟨n, r, s⟩ := em
  cases r <;> cases s <;> simp [Tells, base] at h ⊢ <;> first | constructor <;> linarith | linarith

theorem Tells.shiftRight {em : ExtendedMantissa} {y : ℚ} (h : Tells em y) (k : ℕ) :
    Tells (em >>> k) (y / 2 ^ k) := by
  show Tells (k.repeat ExtendedMantissa.shiftRightOne em) _
  induction k with
  | zero => simpa [Nat.repeat] using h
  | succ k ih =>
    rw [Nat.repeat, pow_succ, ← div_div]
    exact ih.shiftRightOne

theorem IsNearest.of_lt {n : ℕ} {y : ℚ} (hl : (n : ℚ) - 1 / 2 < y) (hu : y < n + 1 / 2) :
    IsNearest n y :=
  ⟨hl.le, hu.le, fun h => h.elim (fun h => absurd h hl.ne') fun h => absurd h hu.ne⟩

/-- Every number has a nearest whole number. -/
theorem exists_isNearest {y : ℚ} (hy : 0 ≤ y) : ∃ n, IsNearest n y := by
  have hle := Nat.floor_le hy
  have hlt := Nat.lt_floor_add_one y
  rcases lt_trichotomy y (⌊y⌋₊ + 1 / 2) with h | h | h
  · exact ⟨⌊y⌋₊, .of_lt (by linarith) h⟩
  · -- Of the two that are equally near one is even.
    rcases Nat.mod_two_eq_zero_or_one ⌊y⌋₊ with heven | hodd
    · exact ⟨⌊y⌋₊, by linarith, h.le, fun _ => heven⟩
    · exact ⟨⌊y⌋₊ + 1, by push_cast; linarith, by push_cast; linarith, fun _ => by omega⟩
  · exact ⟨⌊y⌋₊ + 1, .of_lt (by push_cast; linarith) (by push_cast; linarith)⟩

/-- The rounded mantissa is the nearest whole number. -/
theorem Tells.isNearest {em : ExtendedMantissa} {y : ℚ} (h : Tells em y) :
    IsNearest em.roundedMantissa y := by
  obtain ⟨n, r, s⟩ := em
  cases r <;> cases s <;> simp [Tells, base] at h
  case false.false =>
    show IsNearest n y
    exact .of_lt (by linarith) (by linarith)
  case false.true =>
    show IsNearest n y
    exact .of_lt (by linarith) (by linarith)
  case true.true =>
    show IsNearest (n + 1) y
    exact .of_lt (by push_cast; linarith) (by push_cast; linarith)
  case true.false =>
    show IsNearest (n + n % 2) y
    obtain hn | hn := Nat.mod_two_eq_zero_or_one n <;> rw [hn]
    · exact ⟨by push_cast; linarith, by push_cast; linarith, fun _ => hn⟩
    · exact ⟨by push_cast; linarith, by push_cast; linarith, fun _ => by omega⟩

/-- The whole part of a number that a mantissa tells of. -/
theorem Tells.mantissa_le {em : ExtendedMantissa} {y : ℚ} (h : Tells em y) : em.mantissa ≤ y := by
  obtain ⟨n, r, s⟩ := em
  cases r <;> cases s <;> simp [Tells, base] at h ⊢ <;> linarith

theorem Tells.lt_mantissa {em : ExtendedMantissa} {y : ℚ} (h : Tells em y) :
    y < em.mantissa + 1 := by
  obtain ⟨n, r, s⟩ := em
  cases r <;> cases s <;> simp [Tells, base] at h ⊢ <;> linarith

@[simp]
theorem mantissa_ofMantissaAndAccuracy (m : ℕ) (acc : Accuracy) :
    (ExtendedMantissa.ofMantissaAndAccuracy m acc).mantissa = m := by
  cases acc with
  | exact => rfl
  | inexact o => cases o <;> rfl

/-! ## The binade -/

/-- A number between `2 ^ (t - 1)` and `2 ^ t`. -/
def InBinade (t : ℤ) (y : ℚ) : Prop := 2 ^ (t - 1) ≤ y ∧ y < (2 : ℚ) ^ t

theorem zpow_two_lt {a b : ℤ} : (2 : ℚ) ^ a < 2 ^ b ↔ a < b :=
  zpow_lt_zpow_iff_right₀ (by norm_num)

theorem InBinade.unique {t u : ℤ} {y : ℚ} (ht : InBinade t y) (hu : InBinade u y) : t = u := by
  have h1 : t - 1 < u := zpow_two_lt.1 (ht.1.trans_lt hu.2)
  have h2 : u - 1 < t := zpow_two_lt.1 (hu.1.trans_lt ht.2)
  omega

/-- The total exponent names the binade of the number. -/
theorem Tells.inBinade {m : ℕ} {e : ℤ} {acc : Accuracy} {y : ℚ} (hm : 0 < m)
    (h : Tells (.ofMantissaAndAccuracy m acc) (y / 2 ^ e)) : InBinade (totalExponent m e) y := by
  have hpow : (0 : ℚ) < 2 ^ e := by positivity
  have hlow := h.mantissa_le
  have hhigh := h.lt_mantissa
  rw [mantissa_ofMantissaAndAccuracy] at hlow hhigh
  rw [le_div_iff₀ hpow] at hlow
  rw [div_lt_iff₀ hpow] at hhigh
  have hlog : ((2 ^ m.log2 : ℕ) : ℚ) ≤ m := by exact_mod_cast Nat.log2_self_le hm.ne'
  have hlog' : ((m + 1 : ℕ) : ℚ) ≤ (2 ^ (m.log2 + 1) : ℕ) := by
    exact_mod_cast Nat.lt_log2_self
  push_cast at hlog hlog'
  constructor
  · calc (2 : ℚ) ^ (totalExponent m e - 1) = 2 ^ m.log2 * 2 ^ e := by
          rw [← zpow_natCast, ← zpow_add₀ two_ne_zero]
          congr 1
          simp only [totalExponent]
          omega
      _ ≤ m * 2 ^ e := by gcongr
      _ ≤ y := hlow
  · calc y < (m + 1) * 2 ^ e := hhigh
      _ ≤ 2 ^ (m.log2 + 1) * 2 ^ e := by gcongr
      _ = 2 ^ totalExponent m e := by
          rw [← zpow_natCast, ← zpow_add₀ two_ne_zero]
          congr 1

/-! ## The rounding of a format -/

variable {F : Format}

theorem minExponent_le (F : Format) (t : ℤ) : F.minExponent ≤ F.targetExponent t :=
  le_max_right _ _

/-- A mantissa that fits needs no second shift. -/
theorem shiftToTargetExponent_of_lt {n : ℕ} {e : ℤ} (hn : n < 2 ^ F.mantissaBits)
    (he : F.minExponent ≤ e) : shiftToTargetExponent F n e .exact = (⟨n, false, false⟩, e) := by
  have hlog : n.log2 < F.mantissaBits := by
    by_cases h : n = 0
    · rw [h, mantissaBits_eq]
      exact Nat.succ_pos _
    · exact (Nat.log2_lt h).2 hn
  have hzero : (F.targetExponent (totalExponent n e) - e).toNat = 0 := by
    simp only [Format.targetExponent, totalExponent]
    omega
  rw [shiftToTargetExponent, shiftToExponent, hzero]
  exact congrArg _ (Int.add_zero e)

/-- A mantissa that rounding has carried into the next power of two is shifted once more. -/
theorem shiftToTargetExponent_carry {e : ℤ} (he : F.minExponent ≤ e) :
    shiftToTargetExponent F (2 ^ F.mantissaBits) e .exact
      = (⟨2 ^ F.mantissaBitsWithoutImplicit, false, false⟩, e + 1) := by
  have hone : (F.targetExponent (totalExponent (2 ^ F.mantissaBits) e) - e).toNat = 1 := by
    simp only [Format.targetExponent, totalExponent, Nat.log2_two_pow]
    omega
  have heven : 2 ^ F.mantissaBits = 2 * 2 ^ F.mantissaBitsWithoutImplicit := by
    rw [mantissaBits_eq, Nat.pow_succ, Nat.mul_comm]
  rw [shiftToTargetExponent, shiftToExponent, hone]
  show (ExtendedMantissa.shiftRightOne ⟨2 ^ F.mantissaBits, false, false⟩, e + 1) = _
  rw [ExtendedMantissa.shiftRightOne, heven, Nat.mul_div_cancel_left _ two_pos,
    Nat.mul_mod_right]
  rfl

/-- The number with mantissa `n` and exponent `e`, where `n` may have been carried into the next
    power of two. -/
def settle (F : Format) (s : Sign) (n : ℕ) (e : ℤ) : UnpackedFloat :=
  if hn : 0 < n then
    if n < 2 ^ F.mantissaBits then .finite s n e hn
    else .finite s (2 ^ F.mantissaBitsWithoutImplicit) (e + 1) (Nat.two_pow_pos _)
  else .zero s

/-- The positive number `y`, rounded to a format: the mantissa is the nearest whole number of last
    places of the binade of `y`. -/
def Rounded (F : Format) (s : Sign) (y : ℚ) (u : UnpackedFloat) : Prop :=
  ∃ t n, InBinade t y ∧ IsNearest n (y / 2 ^ F.targetExponent t) ∧
    u = settle F s n (F.targetExponent t)

theorem IsNearest.le_of_lt {n b : ℕ} {y : ℚ} (hn : IsNearest n y) (hy : y < b) : n ≤ b := by
  have h : (n : ℚ) < b + 1 := by linarith [hn.lower]
  exact Nat.lt_succ_iff.1 (by exact_mod_cast h)

theorem IsNearest.le_of_le {n b : ℕ} {y : ℚ} (hn : IsNearest n y) (hy : b ≤ y) : b ≤ n := by
  have h : (b : ℚ) < n + 1 := by linarith [hn.upper]
  exact Nat.lt_succ_iff.1 (by exact_mod_cast h)

/-- A number has fewer last places than a mantissa can count. -/
theorem InBinade.div_lt {t : ℤ} {y : ℚ} (h : InBinade t y) :
    y / 2 ^ F.targetExponent t < (2 ^ F.mantissaBits : ℕ) := by
  rw [div_lt_iff₀ (by positivity)]
  calc y < 2 ^ t := h.2
    _ ≤ 2 ^ (F.mantissaBits + F.targetExponent t : ℤ) := by
        apply zpow_le_zpow_right₀ (by norm_num)
        simp only [Format.targetExponent]
        omega
    _ = (2 ^ F.mantissaBits : ℕ) * 2 ^ F.targetExponent t := by
        rw [zpow_add₀ two_ne_zero, zpow_natCast]
        push_cast
        rfl

/-- Rounding only asks for the place of the binade, which a mantissa of zero bits can also tell when
    the number is below all places. -/
theorem roundWithAccuracy_rounded_of_binade {s : Sign} {m : ℕ} {e t : ℤ} {acc : Accuracy} {y : ℚ}
    (hbinade : InBinade t y) (hy : Tells (.ofMantissaAndAccuracy m acc) (y / 2 ^ e))
    (he : e ≤ F.targetExponent t)
    (htarget : F.targetExponent (totalExponent m e) = F.targetExponent t) :
    Rounded F s y (roundWithAccuracy F s m e acc) := by
  obtain ⟨k, hk⟩ := Int.le.dest he
  generalize hem : ExtendedMantissa.ofMantissaAndAccuracy m acc >>> k = em
  have hshift : shiftToTargetExponent F m e acc = (em, F.targetExponent t) := by
    have hk' : (F.targetExponent t - e).toNat = k := by omega
    rw [shiftToTargetExponent, shiftToExponent, htarget, hk', hem, hk]
  have hnear : IsNearest em.roundedMantissa (y / 2 ^ F.targetExponent t) := by
    have hsplit : y / 2 ^ F.targetExponent t = y / 2 ^ e / 2 ^ k := by
      rw [← hk, zpow_add₀ two_ne_zero, zpow_natCast, div_div]
    rw [hsplit, ← hem]
    exact (hy.shiftRight k).isNearest
  have hle : em.roundedMantissa ≤ 2 ^ F.mantissaBits := hnear.le_of_lt hbinade.div_lt
  refine ⟨t, em.roundedMantissa, hbinade, hnear, ?_⟩
  rw [roundWithAccuracy, hshift]
  dsimp only
  generalize em.roundedMantissa = n at hle
  obtain hlt | rfl := Nat.lt_or_eq_of_le hle
  · rw [shiftToTargetExponent_of_lt hlt (minExponent_le F t), settle]
    by_cases hn : 0 < n
    · simp only [hn, hlt, Nat.ne_of_gt hn, ↓reduceDIte, ↓reduceIte]
    · simp only [Nat.eq_zero_of_not_pos hn, ↓reduceDIte, lt_irrefl]
  · rw [shiftToTargetExponent_carry (minExponent_le F t), settle]
    simp only [Nat.two_pow_pos, (Nat.two_pow_pos _).ne', lt_irrefl, ↓reduceDIte, ↓reduceIte]

theorem roundWithAccuracy_rounded {s : Sign} {m : ℕ} {e : ℤ} {acc : Accuracy} {y : ℚ} (hm : 0 < m)
    (hy : Tells (.ofMantissaAndAccuracy m acc) (y / 2 ^ e))
    (he : e ≤ F.targetExponent (totalExponent m e)) :
    Rounded F s y (roundWithAccuracy F s m e acc) :=
  roundWithAccuracy_rounded_of_binade (hy.inBinade hm) hy he rfl

/-! ## What rounds to a number -/

/-- The lower end of the numbers that round to `m · 2 ^ e`, half a place below, or a quarter when
    the numbers below are closer together. -/
def lowerEnd (F : Format) (m : ℕ) (e : ℤ) : ℚ :=
  (if m = 2 ^ F.mantissaBitsWithoutImplicit ∧ F.minExponent < e then 4 * (m : ℚ) - 1
    else 4 * m - 2) * 2 ^ (e - 2)

/-- The upper end, half a place above. -/
def upperEnd (m : ℕ) (e : ℤ) : ℚ := (4 * m + 2) * 2 ^ (e - 2)

/-- The numbers that round to `m · 2 ^ e`. -/
structure RoundsTo (F : Format) (y : ℚ) (m : ℕ) (e : ℤ) : Prop extends Canonical F m e where
  lower : lowerEnd F m e ≤ y
  upper : y ≤ upperEnd m e
  even : y = lowerEnd F m e ∨ y = upperEnd m e → m % 2 = 0

theorem four_mul_zpow (e : ℤ) : (4 : ℚ) * 2 ^ (e - 2) = 2 ^ e := by
  rw [show (4 : ℚ) = 2 ^ (2 : ℤ) by norm_num, ← zpow_add₀ two_ne_zero]
  congr 1
  omega

theorem two_pow_mul_zpow (k : ℕ) (e : ℤ) : ((2 ^ k : ℕ) : ℚ) * 2 ^ e = 2 ^ (k + e : ℤ) := by
  rw [zpow_add₀ two_ne_zero, zpow_natCast]
  push_cast
  rfl

theorem upperEnd_eq (m : ℕ) (e : ℤ) : upperEnd m e = (m + 1 / 2) * 2 ^ e := by
  rw [upperEnd, ← four_mul_zpow e]
  ring

theorem le_lowerEnd (F : Format) (m : ℕ) (e : ℤ) : (m - 1 / 2) * 2 ^ e ≤ lowerEnd F m e := by
  rw [lowerEnd, ← four_mul_zpow e, ← mul_assoc]
  gcongr
  split <;> linarith

theorem lowerEnd_lt (F : Format) (m : ℕ) (e : ℤ) : lowerEnd F m e < m * 2 ^ e := by
  rw [lowerEnd, ← four_mul_zpow e, ← mul_assoc]
  gcongr
  split <;> linarith

theorem lt_upperEnd (m : ℕ) (e : ℤ) : m * 2 ^ e < upperEnd m e := by
  rw [upperEnd, ← four_mul_zpow e, ← mul_assoc]
  gcongr
  linarith

/-- Only positive numbers round to a positive number. -/
theorem RoundsTo.value_pos {y : ℚ} {m : ℕ} {e : ℤ} (h : RoundsTo F y m e) : 0 < y := by
  have hm : (1 : ℚ) ≤ m := by exact_mod_cast h.pos
  calc (0 : ℚ) < (m - 1 / 2) * 2 ^ e := mul_pos (by linarith) (by positivity)
    _ ≤ lowerEnd F m e := le_lowerEnd F m e
    _ ≤ y := h.lower

/-- Between the ends everything rounds to the number. -/
theorem Canonical.roundsTo_of_lt {y : ℚ} {m : ℕ} {e : ℤ} (h : Canonical F m e)
    (hl : lowerEnd F m e < y) (hu : y < upperEnd m e) : RoundsTo F y m e :=
  ⟨h, hl.le, hu.le, fun htie => htie.elim (absurd · hl.ne') (absurd · hu.ne)⟩

/-- A number of the format rounds to itself. -/
theorem Canonical.roundsTo {m : ℕ} {e : ℤ} (h : Canonical F m e) : RoundsTo F (m * 2 ^ e) m e :=
  h.roundsTo_of_lt (lowerEnd_lt F m e) (lt_upperEnd m e)

theorem even_two_pow_mantissaBits (F : Format) : 2 ^ F.mantissaBitsWithoutImplicit % 2 = 0 := by
  obtain ⟨k, hk⟩ := Nat.exists_eq_succ_of_ne_zero F.hm.ne'
  rw [hk, Nat.pow_succ, Nat.mul_mod_left]

theorem RoundsTo.isNearest {y : ℚ} {m : ℕ} {e : ℤ} (h : RoundsTo F y m e) :
    IsNearest m (y / 2 ^ e) := by
  have hpow : (0 : ℚ) < 2 ^ e := by positivity
  refine ⟨?_, ?_, fun htie => ?_⟩
  · rw [le_div_iff₀ hpow]
    exact (le_lowerEnd F m e).trans h.lower
  · rw [div_le_iff₀ hpow, ← upperEnd_eq]
    exact h.upper
  · rw [div_eq_iff hpow.ne', div_eq_iff hpow.ne', ← upperEnd_eq] at htie
    obtain htie | htie := htie
    · by_cases hq : m = 2 ^ F.mantissaBitsWithoutImplicit ∧ F.minExponent < e
      · rw [hq.1, even_two_pow_mantissaBits]
      · refine h.even (.inl ?_)
        rw [htie, lowerEnd, if_neg hq, ← four_mul_zpow e]
        ring
    · exact h.even (.inr htie)

/-- From the leading power of two of a full mantissa on, its exponent is the place. -/
theorem RoundsTo.targetExponent_of_le {y : ℚ} {m : ℕ} {e t : ℤ} (h : RoundsTo F y m e)
    (ht : InBinade t y) (hy : 2 ^ (F.mantissaBitsWithoutImplicit + e : ℤ) ≤ y) :
    F.targetExponent t = e := by
  have hbits := mantissaBits_eq F
  have hleast := h.least
  have hbinade : InBinade (F.mantissaBits + e) y := by
    refine ⟨?_, ?_⟩
    · rw [hbits]
      convert hy using 2
      push_cast
      ring
    · have hlt : ((m + 1 : ℕ) : ℚ) ≤ (2 ^ F.mantissaBits : ℕ) := by exact_mod_cast h.lt
      calc y ≤ (m + 1 / 2) * 2 ^ e := by rw [← upperEnd_eq]; exact h.upper
        _ < (m + 1 : ℕ) * 2 ^ e := by
            gcongr
            push_cast
            linarith
        _ ≤ (2 ^ F.mantissaBits : ℕ) * 2 ^ e := by gcongr
        _ = 2 ^ (F.mantissaBits + e : ℤ) := two_pow_mul_zpow _ _
  rw [ht.unique hbinade, Format.targetExponent]
  omega

/-- Only a leading power of two has numbers of the binade below round to it. -/
theorem RoundsTo.eq_two_pow {y : ℚ} {m : ℕ} {e : ℤ} (h : RoundsTo F y m e)
    (he : F.minExponent < e) (hy : y < 2 ^ (F.mantissaBitsWithoutImplicit + e : ℤ)) :
    m = 2 ^ F.mantissaBitsWithoutImplicit := by
  by_contra hne
  have hfull := lt_of_le_of_ne (h.full.resolve_right he.ne') (Ne.symm hne)
  have hge : ((2 ^ F.mantissaBitsWithoutImplicit : ℕ) : ℚ) ≤ m - 1 / 2 := by
    have : ((2 ^ F.mantissaBitsWithoutImplicit + 1 : ℕ) : ℚ) ≤ m := by exact_mod_cast hfull
    push_cast at this ⊢
    linarith
  have : y < y := calc
    y < (2 ^ F.mantissaBitsWithoutImplicit : ℕ) * 2 ^ e := by rwa [two_pow_mul_zpow]
    _ ≤ (m - 1 / 2) * 2 ^ e := by gcongr
    _ ≤ y := (le_lowerEnd F m e).trans h.lower
  exact lt_irrefl y this

/-- Just below a power of two the places are half as wide, so that the nearest mantissa is the one
    that is carried. -/
theorem RoundsTo.isNearest_carry {y : ℚ} {m : ℕ} {e : ℤ} (h : RoundsTo F y m e)
    (hm : m = 2 ^ F.mantissaBitsWithoutImplicit) (he : F.minExponent < e)
    (hy : y < 2 ^ (F.mantissaBitsWithoutImplicit + e : ℤ)) :
    IsNearest (2 ^ F.mantissaBits) (y / 2 ^ (e - 1)) := by
  have hpow : (0 : ℚ) < 2 ^ (e - 1) := by positivity
  have htwice : ((2 ^ F.mantissaBits : ℕ) : ℚ) = 2 * m := by
    rw [hm, mantissaBits_eq, Nat.pow_succ]
    push_cast
    ring
  have htop : y < 2 * m * 2 ^ (e - 1) := by
    rw [← htwice, two_pow_mul_zpow, mantissaBits_eq]
    convert hy using 2
    push_cast
    ring
  have hlow : (2 * m - 1 / 2) * 2 ^ (e - 1) ≤ y := by
    refine le_trans (le_of_eq ?_) h.lower
    have hhalf : (2 : ℚ) ^ (e - 1) = 2 * 2 ^ (e - 2) := by
      rw [← zpow_one_add₀ two_ne_zero]
      congr 1
      omega
    rw [lowerEnd, if_pos ⟨hm, he⟩, hhalf]
    ring
  refine ⟨?_, ?_, fun _ => ?_⟩
  · rw [htwice, le_div_iff₀ hpow]
    exact hlow
  · rw [htwice, div_le_iff₀ hpow]
    linarith
  · rw [mantissaBits_eq, Nat.pow_succ, Nat.mul_mod_left]

/-- What rounds to a number is rounded to it. -/
theorem Rounded.eq_finite {s : Sign} {y : ℚ} {u : UnpackedFloat} {m : ℕ} {e : ℤ}
    (h : Rounded F s y u) (hr : RoundsTo F y m e) : u = .finite s m e hr.pos := by
  obtain ⟨t, n, hbinade, hn, rfl⟩ := h
  have hbits := mantissaBits_eq F
  have hleast := hr.least
  -- with the exponent of the number as the place, its mantissa is the nearest
  have hsame (ht : F.targetExponent t = e) :
      settle F s n (F.targetExponent t) = .finite s m e hr.pos := by
    rw [ht] at hn ⊢
    obtain rfl := hn.unique hr.isNearest
    rw [settle, dif_pos hr.pos, if_pos hr.lt]
  obtain hy | hy := le_or_gt (2 ^ (F.mantissaBitsWithoutImplicit + e : ℤ)) y
  · exact hsame (hr.targetExponent_of_le hbinade hy)
  have htop : t ≤ F.mantissaBitsWithoutImplicit + e := by
    have := zpow_two_lt.1 (hbinade.1.trans_lt hy)
    omega
  obtain he | he := hleast.eq_or_lt
  · refine hsame ?_
    rw [Format.targetExponent]
    omega
  -- below a power of two the place is half as wide
  have hm := hr.eq_two_pow he hy
  have hcarry := hr.isNearest_carry hm he hy
  have hlow : (2 : ℚ) ^ (F.mantissaBitsWithoutImplicit + (e - 1) : ℤ) ≤ y := by
    rw [← two_pow_mul_zpow, ← le_div_iff₀ (by positivity)]
    have hone : (1 : ℚ) ≤ (2 ^ F.mantissaBitsWithoutImplicit : ℕ) := by
      exact_mod_cast Nat.two_pow_pos _
    have := hcarry.lower
    rw [hbits, Nat.pow_succ] at this
    push_cast at this hone ⊢
    linarith
  have htarget : F.targetExponent t = e - 1 := by
    have := zpow_two_lt.1 (hlow.trans_lt hbinade.2)
    rw [Format.targetExponent]
    omega
  rw [htarget] at hn ⊢
  obtain rfl := hn.unique hcarry
  rw [settle, dif_pos (Nat.two_pow_pos _), if_neg (lt_irrefl _)]
  subst hm
  congr 1
  omega

theorem exists_rounded {y : ℚ} (s : Sign) (hy : 0 < y) : ∃ u, Rounded F s y u := by
  obtain ⟨t, hlow, hhigh⟩ := exists_mem_Ico_zpow hy one_lt_two
  obtain ⟨n, hn⟩ := exists_isNearest (y := y / 2 ^ F.targetExponent (t + 1)) (by positivity)
  exact ⟨_, t + 1, n, ⟨by rwa [add_sub_cancel_right], hhigh⟩, hn, rfl⟩

/-- **No number rounds to two numbers of a format.** -/
theorem RoundsTo.unique {y : ℚ} {m m' : ℕ} {e e' : ℤ} (h : RoundsTo F y m e)
    (h' : RoundsTo F y m' e') : m = m' ∧ e = e' := by
  obtain ⟨u, hu⟩ := exists_rounded (F := F) .positive h.value_pos
  have hsame := (hu.eq_finite h).symm.trans (hu.eq_finite h')
  rw [UnpackedFloat.finite.injEq] at hsame
  exact ⟨hsame.2.1, hsame.2.2⟩

/-! ## How far rounding goes -/

/-- What a positive mantissa settles to is a number of the format, and carrying leaves its value
    alone. -/
theorem exists_settle (s : Sign) {n : ℕ} {e : ℤ} (hpos : 0 < n) (hn : n ≤ 2 ^ F.mantissaBits)
    (he : F.minExponent ≤ e) (hfull : 2 ^ F.mantissaBitsWithoutImplicit ≤ n ∨ e = F.minExponent) :
    ∃ (m : ℕ) (e' : ℤ) (hc : Canonical F m e'), settle F s n e = .finite s m e' hc.pos ∧
      (m * 2 ^ e' : ℚ) = n * 2 ^ e := by
  obtain hlt | rfl := hn.lt_or_eq
  · exact ⟨n, e, ⟨hpos, hlt, he, hfull⟩, by rw [settle, dif_pos hpos, if_pos hlt], rfl⟩
  · refine ⟨2 ^ F.mantissaBitsWithoutImplicit, e + 1,
      ⟨Nat.two_pow_pos _, ?_, he.trans (Int.le_add_one le_rfl), .inl le_rfl⟩, ?_, ?_⟩
    · rw [mantissaBits_eq]
      exact Nat.pow_lt_pow_right (by norm_num) (Nat.lt_succ_self _)
    · rw [settle, dif_pos hpos, if_neg (lt_irrefl _)]
    · rw [two_pow_mul_zpow, two_pow_mul_zpow, mantissaBits_eq]
      congr 1
      push_cast
      ring

/-- A number that reaches the least full one has a full mantissa. -/
theorem Canonical.full_of_le {m : ℕ} {e : ℤ} (h : Canonical F m e)
    (hy : (2 : ℚ) ^ (F.mantissaBitsWithoutImplicit + F.minExponent : ℤ) ≤ m * 2 ^ e) :
    2 ^ F.mantissaBitsWithoutImplicit ≤ m := by
  refine h.full.elim id fun he => ?_
  rw [he, ← two_pow_mul_zpow] at hy
  exact_mod_cast le_of_mul_le_mul_right hy (by positivity)


/-- The nearest multiple of a step is at most half a step away. -/
theorem IsNearest.abs_sub_le {n : ℕ} {y step : ℚ} (hstep : 0 < step)
    (hn : IsNearest n (y / step)) : |n * step - y| ≤ 1 / 2 * step := by
  have hhalf : |n - y / step| ≤ 1 / 2 := by
    rw [abs_le]
    constructor <;> linarith [hn.lower, hn.upper]
  have hscale : n * step - y = (n - y / step) * step := by
    rw [sub_mul, div_mul_cancel₀ _ hstep.ne']
  rw [hscale, abs_mul, abs_of_pos hstep]
  gcongr

/-- In the range of full mantissas, the least full mantissa stands for the start of the binade. -/
theorem two_pow_mul_targetExponent {t : ℤ}
    (ht : F.minExponent + F.mantissaBitsWithoutImplicit < t) :
    ((2 ^ F.mantissaBitsWithoutImplicit : ℕ) : ℚ) * 2 ^ F.targetExponent t = 2 ^ (t - 1) := by
  have hbits := mantissaBits_eq F
  rw [two_pow_mul_zpow, Format.targetExponent]
  congr 1
  omega

/-- There, the error is at most a part in `2 ^ mantissaBits` of the start of the binade. -/
theorem IsNearest.error_le {n : ℕ} {t : ℤ} {y : ℚ} (hn : IsNearest n (y / 2 ^ F.targetExponent t))
    (ht : F.minExponent + F.mantissaBitsWithoutImplicit < t) :
    |n * 2 ^ F.targetExponent t - y| * 2 ^ F.mantissaBits ≤ 2 ^ (t - 1) := by
  have hstep := hn.abs_sub_le (by positivity)
  have htwice : (2 : ℚ) ^ F.mantissaBits = 2 * (2 ^ F.mantissaBitsWithoutImplicit : ℕ) := by
    rw [mantissaBits_eq, pow_succ]
    push_cast
    ring
  calc |n * 2 ^ F.targetExponent t - y| * 2 ^ F.mantissaBits
      ≤ 1 / 2 * 2 ^ F.targetExponent t * 2 ^ F.mantissaBits := by gcongr
    _ = (2 ^ F.mantissaBitsWithoutImplicit : ℕ) * 2 ^ F.targetExponent t := by
        rw [htwice]
        ring
    _ = 2 ^ (t - 1) := two_pow_mul_targetExponent ht

/-- In the range of full mantissas, rounding moves a number by at most half a place of the number
    and of the result. -/
theorem Rounded.exists_near {s : Sign} {y : ℚ} {u : UnpackedFloat} (h : Rounded F s y u)
    (hy : 2 ^ (F.minExponent + F.mantissaBitsWithoutImplicit) ≤ y) :
    ∃ (m : ℕ) (e : ℤ) (hc : Canonical F m e), u = .finite s m e hc.pos ∧
      2 ^ F.mantissaBitsWithoutImplicit ≤ m ∧
      |m * 2 ^ e - y| * 2 ^ F.mantissaBits ≤ y ∧
      |m * 2 ^ e - y| * 2 ^ F.mantissaBits ≤ m * 2 ^ e := by
  obtain ⟨t, n, hbinade, hn, rfl⟩ := h
  have ht := zpow_two_lt.1 (hy.trans_lt hbinade.2)
  have hlead := two_pow_mul_targetExponent ht
  have herr := hn.error_le ht
  have hfull : 2 ^ F.mantissaBitsWithoutImplicit ≤ n := by
    refine hn.le_of_le ?_
    rw [le_div_iff₀ (by positivity), hlead]
    exact hbinade.1
  have hpos : 0 < n := (Nat.two_pow_pos _).trans_le hfull
  have hvalue : (2 : ℚ) ^ (t - 1) ≤ n * 2 ^ F.targetExponent t := by
    rw [← hlead]
    gcongr
  obtain ⟨m, e, hc, hsettle, hsame⟩ := exists_settle s hpos (hn.le_of_lt hbinade.div_lt)
    (minExponent_le F t) (.inl hfull)
  rw [← hsame] at herr hvalue
  refine ⟨m, e, hc, hsettle, hc.full_of_le ?_, herr.trans hbinade.1, herr.trans hvalue⟩
  rw [hsame, ← two_pow_mul_zpow]
  have hfull' : ((2 ^ F.mantissaBitsWithoutImplicit : ℕ) : ℚ) ≤ n := by exact_mod_cast hfull
  gcongr
  exacts [one_le_two, minExponent_le F t]

/-! ## Operations -/

/-- A mantissa with all its bits is not too short for its place. -/
theorem le_targetExponent {m : ℕ} (e : ℤ) (hm : 2 ^ F.mantissaBitsWithoutImplicit ≤ m) :
    e ≤ F.targetExponent (totalExponent m e) := by
  have hbits := mantissaBits_eq F
  have hlog := (Nat.le_log2 ((Nat.two_pow_pos _).trans_le hm).ne').2 hm
  rw [Format.targetExponent, totalExponent]
  omega

theorem tells_of_eq {m : ℕ} {y : ℚ} (h : y = m) : Tells (.ofMantissaAndAccuracy m .exact) y := by
  show y = m + 0
  rw [h, add_zero]

theorem inBinade_totalExponent {m : ℕ} (hm : 0 < m) (e : ℤ) :
    InBinade (totalExponent m e) ((m : ℚ) * 2 ^ e) :=
  (tells_of_eq (mul_div_cancel_right₀ _ (by positivity))).inBinade hm

theorem tells_shiftLeft (m : ℕ) (e : ℤ) (k : ℕ) :
    Tells (.ofMantissaAndAccuracy (m <<< k) .exact) ((m : ℚ) * 2 ^ e / 2 ^ (e - k)) := by
  refine tells_of_eq ?_
  rw [mul_div_assoc, ← zpow_sub₀ two_ne_zero, Nat.shiftLeft_eq, sub_sub_cancel, zpow_natCast]
  push_cast
  rfl

theorem round_rounded (s : Sign) {m : ℕ} (hm : 0 < m) (e : ℤ) :
    Rounded F s (m * 2 ^ e) (UnpackedFloat.round F s m e) := by
  have hbinade := inBinade_totalExponent hm e
  rw [UnpackedFloat.round]
  generalize totalExponent m e = t at hbinade
  rw [decreaseExponent]
  generalize hk : (e - F.targetExponent t).toNat = k
  have htells := tells_shiftLeft m e k
  have hpos : 0 < m <<< k := by
    rw [Nat.shiftLeft_eq]
    exact Nat.mul_pos hm (Nat.two_pow_pos _)
  refine roundWithAccuracy_rounded hpos htells ?_
  rw [(htells.inBinade hpos).unique hbinade]
  omega

theorem mul_rounded {s₁ s₂ : Sign} {m₁ m₂ : ℕ} {e₁ e₂ : ℤ} (h₁ : 0 < m₁) (h₂ : 0 < m₂)
    (he : e₁ + e₂ ≤ F.targetExponent (totalExponent (m₁ * m₂) (e₁ + e₂))) :
    Rounded F (s₁ * s₂) (m₁ * 2 ^ e₁ * (m₂ * 2 ^ e₂))
      (mul F (.finite s₁ m₁ e₁ h₁) (.finite s₂ m₂ e₂ h₂)) := by
  refine roundWithAccuracy_rounded (Nat.mul_pos h₁ h₂) (tells_of_eq ?_) he
  rw [div_eq_iff (by positivity), zpow_add₀ two_ne_zero]
  push_cast
  ring

theorem tells_lt {m : ℕ} {y : ℚ} (hl : m < y) (hu : y < m + 1 / 2) :
    Tells (.ofMantissaAndAccuracy m (.inexact .lt)) y := by
  show (m : ℚ) + 0 < y ∧ y < m + 0 + 1 / 2
  rw [add_zero]
  exact ⟨hl, hu⟩

theorem tells_gt {m : ℕ} {y : ℚ} (hl : m + 1 / 2 < y) (hu : y < m + 1) :
    Tells (.ofMantissaAndAccuracy m (.inexact .gt)) y := by
  show (m : ℚ) + 1 / 2 < y ∧ y < m + 1 / 2 + 1 / 2
  exact ⟨hl, by linarith⟩

/-- A quotient of whole numbers, told by its whole part and by the remainder. -/
theorem tells_quotient (a : ℕ) {b : ℕ} (hb : 0 < b) :
    Tells (.ofMantissaAndAccuracy (a / b) (accuracyOfFraction (a % b) b)) (a / b) := by
  have hb' : (0 : ℚ) < b := by exact_mod_cast hb
  have hsplit : (a : ℚ) / b = (a / b : ℕ) + ((a % b : ℕ) : ℚ) / b := by
    rw [div_eq_iff hb'.ne', add_mul, div_mul_cancel₀ _ hb'.ne']
    exact_mod_cast (Nat.div_add_mod' a b).symm
  have hlt : ((a % b : ℕ) : ℚ) < b := by exact_mod_cast Nat.mod_lt a hb
  rw [hsplit, accuracyOfFraction]
  generalize a / b = q
  generalize a % b = r at hlt
  split
  · next h =>
    subst h
    exact tells_of_eq (by simp)
  · next h =>
    have hr : (0 : ℚ) < r / b := div_pos (by exact_mod_cast Nat.pos_of_ne_zero h) hb'
    have hone : (r : ℚ) / b < 1 := (div_lt_one hb').2 hlt
    obtain hc | hc | hc := Nat.lt_trichotomy (2 * r) b
    · have : (r : ℚ) / b < 1 / 2 := by
        rw [div_lt_iff₀ hb']
        have : (2 * r : ℚ) < b := by exact_mod_cast hc
        linarith
      rw [Nat.compare_eq_lt.2 hc]
      exact tells_lt (by linarith) (by linarith)
    · have : (r : ℚ) / b = 1 / 2 := by
        rw [div_eq_iff hb'.ne', ← hc]
        push_cast
        ring
      rw [Nat.compare_eq_eq.2 hc, this]
      rfl
    · have : 1 / 2 < (r : ℚ) / b := by
        rw [lt_div_iff₀ hb']
        have : (b : ℚ) < 2 * r := by exact_mod_cast hc
        linarith
      rw [Nat.compare_eq_gt.2 hc]
      exact tells_gt (by linarith) (by linarith)

/-- A quotient lies in the binade that the exponents say, or in the next one. -/
theorem InBinade.div {a b : ℚ} {t t₁ t₂ : ℤ} (ha : InBinade t₁ a) (hb : InBinade t₂ b)
    (h : InBinade t (a / b)) : t₁ - t₂ ≤ t ∧ t ≤ t₁ - t₂ + 1 := by
  have hapos : 0 < a := lt_of_lt_of_le (by positivity) ha.1
  have hbpos : 0 < b := lt_of_lt_of_le (by positivity) hb.1
  have hlow : (2 : ℚ) ^ (t₁ - 1 - t₂) < 2 ^ t := calc
    (2 : ℚ) ^ (t₁ - 1 - t₂) = 2 ^ (t₁ - 1) / 2 ^ t₂ := zpow_sub₀ two_ne_zero _ _
    _ ≤ a / b := div_le_div₀ hapos.le ha.1 hbpos hb.2.le
    _ < 2 ^ t := h.2
  have hhigh : (2 : ℚ) ^ (t - 1) < 2 ^ (t₁ - (t₂ - 1)) := calc
    (2 : ℚ) ^ (t - 1) ≤ a / b := h.1
    _ < 2 ^ t₁ / 2 ^ (t₂ - 1) := div_lt_div₀ ha.2 hb.1 (by positivity) (by positivity)
    _ = 2 ^ (t₁ - (t₂ - 1)) := (zpow_sub₀ two_ne_zero _ _).symm
  have h₁ := zpow_two_lt.1 hlow
  have h₂ := zpow_two_lt.1 hhigh
  omega

theorem div_rounded {s₁ s₂ : Sign} {m₁ m₂ : ℕ} {e₁ e₂ : ℤ} (h₁ : 0 < m₁) (h₂ : 0 < m₂) :
    Rounded F (s₁ / s₂) (m₁ * 2 ^ e₁ / (m₂ * 2 ^ e₂))
      (div F (.finite s₁ m₁ e₁ h₁) (.finite s₂ m₂ e₂ h₂)) := by
  obtain ⟨t, hlow, hhigh⟩ := exists_mem_Ico_zpow
    (show (0 : ℚ) < m₁ * 2 ^ e₁ / (m₂ * 2 ^ e₂) by positivity) one_lt_two
  have hbinade : InBinade (t + 1) (m₁ * 2 ^ e₁ / (m₂ * 2 ^ e₂) : ℚ) :=
    ⟨by rwa [add_sub_cancel_right], hhigh⟩
  obtain ⟨hleast, hmost⟩ :=
    (inBinade_totalExponent h₁ e₁).div (inBinade_totalExponent h₂ e₂) hbinade
  show Rounded F _ _ (roundWithAccuracy F _ _ _ _)
  generalize t + 1 = t at *
  generalize totalExponent m₁ e₁ = t₁ at *
  generalize totalExponent m₂ e₂ = t₂ at *
  generalize hte : min (e₁ - e₂) (F.targetExponent (t₁ - t₂)) = e
  generalize hk : (e₁ - e₂ - e).toNat = k
  have htells := tells_quotient (m₁ <<< k) h₂
  have hquot : ((m₁ <<< k : ℕ) : ℚ) / m₂ = m₁ * 2 ^ e₁ / (m₂ * 2 ^ e₂) / 2 ^ e := by
    have hk' : e₁ = e₂ + e + k := by omega
    rw [hk', zpow_add₀ two_ne_zero, zpow_add₀ two_ne_zero, zpow_natCast, Nat.shiftLeft_eq]
    push_cast
    field_simp
  rw [hquot] at htells
  have hbits := mantissaBits_eq F
  have he : e ≤ F.targetExponent t := by
    simp only [Format.targetExponent] at hte ⊢
    omega
  refine roundWithAccuracy_rounded_of_binade hbinade htells he ?_
  obtain hzero | hpos := Nat.eq_zero_or_pos (m₁ <<< k / m₂)
  · -- the quotient is below its own place, and so is that place below all others
    have hsmall := htells.lt_mantissa
    rw [mantissa_ofMantissaAndAccuracy, hzero, Nat.cast_zero, zero_add,
      div_lt_one (by positivity)] at hsmall
    have ht := zpow_two_lt.1 (hbinade.1.trans_lt hsmall)
    have hm := F.hm
    rw [hzero]
    simp only [Format.targetExponent, totalExponent, Nat.log2_zero] at hte ⊢
    omega
  · rw [(htells.inBinade hpos).unique hbinade]

end Relief.Binary
