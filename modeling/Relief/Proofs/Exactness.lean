import Relief.Proofs.Quantization

set_option autoImplicit false

/-! # Exactness: what rounding leaves as it is

A number that the mantissa can count, in places of some exponent of the format, is not rounded
(`Magnitude.eq_of_lt`). The numbers of samples are of this kind as long as they are small: whole
numbers below `2 ^ 24` and, a bit or three earlier, their halves and eighths. So a size becomes the
number it is (`Binary32.value_ofSize`), and a number that is truncated and made a number again is
the size of its whole part (`Binary32.ofInt_toInt`). -/

namespace Relief

namespace Binary

open Float.Model (Format UnpackedFloat)
open Float.Model.UnpackedFloat

variable {F : Format} {z : ℚ} {n : ℕ} {e : ℤ}

/-- **What the mantissa can count is not rounded.** -/
theorem Magnitude.eq_of_lt (h : Magnitude F (n * 2 ^ e) z) (hn : n < 2 ^ F.mantissaBits)
    (hleast : F.minExponent ≤ e) (htop : e ≤ topExponent F) : z = n * 2 ^ e := by
  obtain ⟨t, k, hbinade, hk, rfl⟩ := h
  have hvalue := value_lt_of_lt hn e
  have hplace : F.targetExponent t ≤ e := by
    have := zpow_two_lt.1 (hbinade.1.trans_lt hvalue)
    simp only [Format.targetExponent]
    omega
  obtain ⟨j, hj⟩ := Int.le.dest hplace
  have hscale : (2 : ℚ) ^ e = (2 ^ j : ℕ) * 2 ^ F.targetExponent t := by
    rw [two_pow_mul_zpow, add_comm, hj]
  -- counted in the places of its binade the number is whole, so it is nearest to itself
  have hcount : (n * 2 ^ e / 2 ^ F.targetExponent t : ℚ) = (n * 2 ^ j : ℕ) := by
    rw [hscale, ← mul_assoc, mul_div_cancel_right₀ _ (by positivity), Nat.cast_mul]
  have hself : IsNearest (n * 2 ^ j) (n * 2 ^ e / 2 ^ F.targetExponent t : ℚ) := by
    rw [hcount]
    exact .of_lt (by linarith) (by linarith)
  rw [hk.unique hself, Nat.cast_mul, mul_assoc, ← hscale]
  exact min_eq_left (hvalue.le.trans (zpow_le_zpow_right₀ one_le_two (by omega)))

theorem IsRounding.eq_of_lt (h : IsRounding F (n * 2 ^ e) z) (hn : n < 2 ^ F.mantissaBits)
    (hleast : F.minExponent ≤ e) (htop : e ≤ topExponent F) : z = n * 2 ^ e := by
  obtain rfl | hpos := Nat.eq_zero_or_pos n
  · rw [Nat.cast_zero, zero_mul] at h ⊢
    exact h.zero rfl
  · exact (h.pos (by positivity)).eq_of_lt hn hleast htop

end Binary

namespace Binary32

open Float.Model (Format UnpackedFloat)
open Float.Model.UnpackedFloat
open Binary

variable {x : Float32} {y : ℚ} {n : ℕ}

theorem value_half : value half = 1 / 2 := by
  show ((2 ^ 23 : ℕ) : ℚ) * 2 ^ (-24 : ℤ) = 1 / 2
  norm_num

/-- A positive number is its mantissa in places of its exponent. -/
theorem exists_canonical (hx : x.isFinite = true) (hpos : 0 < value x) :
    ∃ m e, Canonical .binary32 m e ∧ e ≤ topExponent .binary32 ∧ value x = m * 2 ^ e := by
  obtain ⟨m, e, hm, h⟩ := eq_finite_of_pos (inFormat x) hx hpos
  have hin := inFormat x
  rw [h] at hin
  exact ⟨m, e, hin.1, hin.2, by rw [value, h]; rfl⟩

theorem isFinite_of_between {low high : Float32} (hlow : low.isFinite = true)
    (hhigh : high.isFinite = true) (hx : x.isNaN = false) (hge : value low ≤ value x)
    (hle : value x ≤ value high) : x.isFinite = true := by
  have habove := (abs_lt.1 ((isFinite_iff (isNaN_of_isFinite hlow)).1 hlow)).1
  have hbelow := (abs_lt.1 ((isFinite_iff (isNaN_of_isFinite hhigh)).1 hhigh)).2
  exact (isFinite_iff hx).2 (abs_lt.2 ⟨habove.trans_le hge, hle.trans_lt hbelow⟩)

theorem Is.nonneg (h : Is x y) (h0 : 0 ≤ y) : zero ≤ x := by
  rw [le_iff, value_zero]
  exact ⟨⟨rfl, h.isNaN⟩, h.isRounding.nonneg h0⟩

theorem Is.value_eq_of_lt {e : ℤ} (h : Is x (n * 2 ^ e)) (hn : n < 2 ^ 24) (hleast : -149 ≤ e)
    (htop : e ≤ 104) : value x = n * 2 ^ e :=
  h.isRounding.eq_of_lt hn hleast htop

/-! ## Sizes -/

/-- A size is the whole number, rounded. -/
theorem is_ofSize (hn : n < 2 ^ 64) : Is (ofSize n) n := by
  have hanswers := answers_normalize (F := .binary32) (by decide) (n : ℤ) 0 .positive
  rw [zpow_zero, mul_one, Int.cast_natCast] at hanswers
  refine is_of_answers hanswers ?_
  have hword : n.toUInt64.toNat = n := UInt64.toNat_ofNat_of_lt hn
  show unpack .binary32 (pack .binary32 (normalize .binary32 n.toUInt64.toNat 0 .positive)) = _
  rw [hword]

/-- A size below `2 ^ 24` is the number it becomes. -/
theorem value_ofSize (hn : n < 2 ^ 24) : value (ofSize n) = n := by
  have his : Is (ofSize n) (n * 2 ^ (0 : ℤ)) := by
    rw [zpow_zero, mul_one]
    exact is_ofSize (by omega)
  rw [his.value_eq_of_lt hn (by decide) (by decide), zpow_zero, mul_one]

theorem ofSize_mono {k : ℕ} (h : n ≤ k) (hk : k < 2 ^ 64) : value (ofSize n) ≤ value (ofSize k) :=
  (is_ofSize (by omega)).isRounding.mono (is_ofSize hk).isRounding (Nat.cast_le.2 h)

/-- What is rounded from below half a place above the greatest finite number stays finite. -/
theorem Is.isFinite_of_lt (h : Is x y) (h0 : 0 ≤ y) (hlt : y < ceiling .binary32) :
    x.isFinite = true := by
  rw [isFinite_iff h.isNaN, abs_of_nonneg (h.isRounding.nonneg h0)]
  obtain rfl | hpos := h0.eq_or_lt
  · rw [h.isRounding.zero rfl]
    exact limit_pos _
  · exact ((h.isRounding.pos hpos).lt_limit_iff (by decide)).2 hlt

theorem isFinite_ofSize (hn : n < 2 ^ 64) : (ofSize n).isFinite = true := by
  have hsize : (n : ℚ) < 2 ^ 64 := by exact_mod_cast hn
  refine (is_ofSize hn).isFinite_of_lt (Nat.cast_nonneg n) (hsize.trans ?_)
  rw [HeightRange.ceiling_binary32]
  norm_num

/-! ## Truncation -/

theorem toNat_toUInt64 (h0 : 0 ≤ value x) (hlt : value x < 2 ^ 64) :
    x.toUInt64.toNat = Nat.floor (value x) := by
  have hfloor : Nat.floor (value x) < UInt64.size := by
    rw [Nat.floor_lt h0]
    exact_mod_cast hlt
  have hlimit : limit .binary32 = 2 ^ (128 : ℤ) := rfl
  suffices h : (x.toModel.unpack.toInt 0 (UInt64.size - 1)).toNat = Nat.floor (value x) by
    show (UInt64.ofNatClamp (x.toModel.unpack.toInt 0 (UInt64.size - 1)).toNat).toNat = _
    rw [h, UInt64.toNat_ofNatClamp_of_lt hfloor]
  rw [value] at h0 hlt ⊢
  cases h : x.toModel.unpack with
  | notANumber | zero => exact Nat.floor_zero.symm
  | finite s m e hm => exact toNat_roundToInt s m e
  | infinity s =>
      rw [h] at h0 hlt
      cases s with
      | negative => exact absurd h0 (not_le.2 (neg_lt_zero.2 (limit_pos _)))
      | positive =>
          rw [valueOf, signed, hlimit] at hlt
          norm_num at hlt

/-- A number that is truncated and made a number again is the greatest whole number below it. -/
theorem ofInt_toInt (h0 : 0 ≤ value x) (hlt : value x < 2 ^ 31) :
    ofInt (toInt x) = ofSize (Nat.floor (value x)) := by
  have hfloor : Nat.floor (value x) < 2 ^ 31 := by
    rw [Nat.floor_lt h0]
    exact_mod_cast hlt
  have hword := toNat_toUInt64 h0 (hlt.trans (by norm_num))
  have hsign : ¬ x < Float32.ofBits 0 := fun h => h0.not_gt (lt_iff_value.1 h).2
  have hinside : ¬ (0x80000000 : UInt64) ≤ x.toUInt64 := by
    rw [UInt64.le_iff_toNat_le, hword]
    exact not_le.2 hfloor
  have htrunc : toInt x = Int32.ofNat (Nat.floor (value x)) := by
    rw [toInt, if_neg hsign]
    show (if (0x80000000 : UInt64) ≤ x.toUInt64 then _ else _) = _
    rw [if_neg hinside, hword]
  have hback : (Int32.ofNat (Nat.floor (value x))).toInt = Nat.floor (value x) :=
    Int32.toInt_ofNat_of_lt hfloor
  have hnonneg : ¬ Int32.ofNat (Nat.floor (value x)) < 0 := by
    rw [Int32.lt_iff_toInt_lt, hback]
    exact not_lt.2 (Int.natCast_nonneg _)
  rw [htrunc, ofInt, if_neg hnonneg, hback, Int.natAbs_natCast]

end Binary32

end Relief
