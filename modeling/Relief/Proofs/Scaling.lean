import Relief.Proofs.Rounding
import Relief.Json.Number

set_option autoImplicit false

/-! # Scaling by powers of ten

A number in a document is computed from a whole significand and one power of ten, both in double
precision. The significand is exact, the power is the nearest one, and the product or quotient is
rounded once more: two roundings, so that the result is off by little more than one place of double
precision (`realOf_near`). Where the power is exact and the number has an exact form, so is the
result. -/

namespace Relief.Binary

open Float.Model (Format UnpackedFloat)
open Float.Model.UnpackedFloat

/-- The double-precision number `x` is normal, with the sign `s` and the magnitude `v`. -/
def Stands (x : Float) (s : Sign) (v : ℚ) : Prop :=
  ∃ (m : ℕ) (e : ℤ) (hm : 0 < m), x.toModel.unpack = .finite s m e hm ∧
    2 ^ 52 ≤ m ∧ v = m * 2 ^ e

/-- Within half a place of double precision, of either number. -/
def Near (v y : ℚ) : Prop := |v - y| * 2 ^ 53 ≤ y ∧ |v - y| * 2 ^ 53 ≤ v

/-- A number that double precision has without rounding. -/
def Exact (v : ℚ) : Prop :=
  ∃ (n : ℕ) (j : ℤ), 0 < n ∧ n < 2 ^ 53 ∧ -1022 ≤ j ∧ j ≤ 971 ∧ v = n * 2 ^ j

theorem stands_pack {s : Sign} {m : ℕ} {e : ℤ} (hc : Canonical .binary64 m e) (he : e ≤ 971)
    (hm : 2 ^ 52 ≤ m) : Stands (.ofModel (.pack (.finite s m e hc.pos))) s (m * 2 ^ e) :=
  ⟨m, e, hc.pos, unpack_pack s hc he, hm, rfl⟩

theorem Rounded.stands_near {s : Sign} {y : ℚ} {u : UnpackedFloat}
    (h : Rounded .binary64 s y u) (hlow : 2 ^ (-1022 : ℤ) ≤ y) (hhigh : y < 2 ^ (1023 : ℤ)) :
    ∃ v, Stands (.ofModel (.pack u)) s v ∧ Near v y := by
  obtain ⟨m, e, hc, rfl, hm, hy, hv⟩ := h.exists_near hlow
  refine ⟨m * 2 ^ e, stands_pack hc ?_ hm, hy, hv⟩
  have hy0 : 0 < y := lt_of_lt_of_le (by positivity) hlow
  have hclose : |m * 2 ^ e - y| ≤ y :=
    (le_mul_of_one_le_right (abs_nonneg _) (one_le_pow₀ one_le_two)).trans hy
  have hlt : (2 : ℚ) ^ (52 + e) < 2 ^ (1024 : ℤ) := calc
    (2 : ℚ) ^ (52 + e) = (2 ^ 52 : ℕ) * 2 ^ e := (two_pow_mul_zpow 52 e).symm
    _ ≤ m * 2 ^ e := by gcongr
    _ ≤ 2 * y := by linarith [le_abs_self ((m : ℚ) * 2 ^ e - y)]
    _ < 2 * 2 ^ (1023 : ℤ) := by gcongr
    _ = 2 ^ (1024 : ℤ) := (zpow_one_add₀ two_ne_zero 1023).symm
  have := zpow_two_lt.1 hlt
  omega

theorem Rounded.stands_exact {s : Sign} {y : ℚ} {u : UnpackedFloat}
    (h : Rounded .binary64 s y u) (hy : Exact y) : Stands (.ofModel (.pack u)) s y := by
  obtain ⟨n, j, hpos, hn, hlow, hhigh, rfl⟩ := hy
  -- the mantissa is shifted until it has all its bits
  have hlog : n.log2 ≤ 52 := Nat.lt_succ_iff.1 ((Nat.log2_lt hpos.ne').2 hn)
  obtain ⟨k, hk⟩ := Nat.le.dest hlog
  have hfull : 2 ^ 52 ≤ n * 2 ^ k := by
    rw [← hk, Nat.pow_add]
    exact Nat.mul_le_mul_right _ (Nat.log2_self_le hpos.ne')
  have hlt : n * 2 ^ k < 2 ^ 53 := by
    have : n < 2 ^ (n.log2 + 1) := Nat.lt_log2_self
    calc n * 2 ^ k < 2 ^ (n.log2 + 1) * 2 ^ k := by gcongr
      _ = 2 ^ 53 := by
          rw [← Nat.pow_add]
          congr 1
          omega
  have hc : Canonical .binary64 (n * 2 ^ k) (j - k) := by
    refine ⟨Nat.mul_pos hpos (Nat.two_pow_pos _), hlt, ?_, .inl hfull⟩
    show -1074 ≤ j - k
    omega
  have hvalue : (n : ℚ) * 2 ^ j = (n * 2 ^ k : ℕ) * 2 ^ (j - k) := by
    rw [zpow_sub₀ two_ne_zero, zpow_natCast]
    push_cast
    field_simp
  rw [hvalue] at h ⊢
  rw [h.eq_finite hc.roundsTo]
  exact stands_pack hc (by omega) hfull

theorem Stands.mul {x y : Float} {s t : Sign} {v w : ℚ} (hx : Stands x s v) (hy : Stands y t w) :
    ∃ u, Rounded .binary64 (s * t) (v * w) u ∧ x * y = .ofModel (.pack u) := by
  obtain ⟨m₁, e₁, h₁, hx, hm₁, rfl⟩ := hx
  obtain ⟨m₂, e₂, h₂, hy, hm₂, rfl⟩ := hy
  refine ⟨_, mul_rounded h₁ h₂ (le_targetExponent _ (hm₁.trans (Nat.le_mul_of_pos_right _ h₂))),
    ?_⟩
  show Float.ofModel (.pack (UnpackedFloat.mul _ x.toModel.unpack y.toModel.unpack)) = _
  rw [hx, hy]

theorem Stands.div {x y : Float} {s t : Sign} {v w : ℚ} (hx : Stands x s v) (hy : Stands y t w) :
    ∃ u, Rounded .binary64 (s / t) (v / w) u ∧ x / y = .ofModel (.pack u) := by
  obtain ⟨m₁, e₁, h₁, hx, hm₁, rfl⟩ := hx
  obtain ⟨m₂, e₂, h₂, hy, hm₂, rfl⟩ := hy
  refine ⟨_, div_rounded h₁ h₂, ?_⟩
  show Float.ofModel (.pack (UnpackedFloat.div _ x.toModel.unpack y.toModel.unpack)) = _
  rw [hx, hy]

theorem stands_toFloat {n : ℕ} (hpos : 0 < n) (hn : n < 2 ^ 53) :
    Stands n.toUInt64.toFloat .positive n := by
  have h : n.toUInt64.toFloat = .ofModel (.pack (UnpackedFloat.round .binary64 .positive n 0)) := by
    have hn' : n.toUInt64.toNat = n := Nat.mod_eq_of_lt (hn.trans (by norm_num))
    show Float.ofModel
      (.pack (UnpackedFloat.normalize .binary64 (n.toUInt64.toNat : ℤ) 0 .positive)) = _
    have hgt : compare (n : ℤ) 0 = .gt := by
      rw [Int.compare_eq_gt]
      omega
    rw [hn', UnpackedFloat.normalize, hgt]
    rfl
  have hround := round_rounded (F := .binary64) .positive hpos 0
  rw [zpow_zero, mul_one] at hround
  rw [h]
  exact hround.stands_exact ⟨n, 0, hpos, hn, by norm_num, by norm_num, by norm_num⟩

theorem Stands.neg {x : Float} {s : Sign} {v : ℚ} (hx : Stands x s v) : Stands (-x) (-s) v := by
  obtain ⟨m, e, h, hx, hm, rfl⟩ := hx
  obtain ⟨hc, he⟩ := canonical_of_unpack (by decide) hx
  have hneg : -x = .ofModel (.pack (.finite (-s) m e h)) := by
    show Float.ofModel (.pack x.toModel.unpack.neg) = _
    rw [hx]
    rfl
  rw [hneg]
  exact stands_pack hc he hm

/-! ## Powers of ten -/

open Json (powerOfTen)

/-- Whether a power of ten is within half a place of the exact one, and equal to it while it has
    an exact form. -/
def tenClose (k : ℕ) : Bool :=
  match (powerOfTen k).toModel.unpack with
  | .finite .positive m e _ =>
    let held : ℕ := m * 2 ^ e.toNat
    let due : ℕ := 10 ^ k * 2 ^ (-e).toNat
    decide (2 ^ 52 ≤ m) && decide (((held : ℤ) - due).natAbs * 2 ^ 53 ≤ min held due) &&
      (decide (22 < k) || held == due)
  | _ => false

theorem tenClose_of_le : ∀ k ≤ 45, tenClose k = true := by
  decide +kernel

/-- The distance of two fractions with a common denominator. -/
theorem abs_sub_mul_eq {x y d : ℚ} {a b : ℕ} (hd : 0 < d) (hx : x * d = a) (hy : y * d = b) :
    |x - y| * d = ((a : ℤ) - b).natAbs := by
  have hmul : |x - y| * d = |(x - y) * d| := by rw [abs_mul, abs_of_pos hd]
  rw [hmul, sub_mul, hx, hy, Nat.cast_natAbs]
  push_cast
  rfl

theorem stands_powerOfTen {k : ℕ} (hk : k ≤ 45) :
    ∃ p : ℚ, Stands (powerOfTen k) .positive p ∧ Near p (10 ^ k) ∧ (k ≤ 22 → p = 10 ^ k) := by
  have h := tenClose_of_le k hk
  rw [tenClose] at h
  split at h
  · next m e hm hx =>
    simp only [Bool.and_eq_true, Bool.or_eq_true, decide_eq_true_eq, beq_iff_eq] at h
    obtain ⟨⟨hfull, hclose⟩, hexact⟩ := h
    generalize hd : 2 ^ (-e).toNat = d at hclose hexact
    have hd0 : (0 : ℚ) < d := by
      rw [← hd]
      positivity
    have hheld : (m : ℚ) * 2 ^ e * d = (m * 2 ^ e.toNat : ℕ) := by
      rw [← hd, mul_assoc]
      push_cast
      rw [← zpow_natCast, ← zpow_natCast, ← zpow_add₀ two_ne_zero]
      congr 2
      omega
    generalize m * 2 ^ e.toNat = held at hheld hclose hexact
    have hpow : (10 : ℚ) ^ k * d = (10 ^ k * d : ℕ) := by push_cast; rfl
    generalize 10 ^ k * d = due at hpow hclose hexact
    rw [Nat.le_min] at hclose
    have hdist := abs_sub_mul_eq hd0 hheld hpow
    generalize ((held : ℤ) - due).natAbs = gap at hdist hclose
    refine ⟨m * 2 ^ e, ⟨m, e, hm, hx, hfull, rfl⟩, ⟨?_, ?_⟩, fun hk => ?_⟩
    · refine le_of_mul_le_mul_right ?_ hd0
      rw [mul_right_comm, hdist, hpow]
      exact_mod_cast hclose.2
    · refine le_of_mul_le_mul_right ?_ hd0
      rw [mul_right_comm, hdist, hheld]
      exact_mod_cast hclose.1
    · have heq : held = due := hexact.resolve_left (by omega)
      rw [← mul_left_inj' hd0.ne', hheld, hpow, heq]
  · cases h

theorem Stands.pos {x : Float} {s : Sign} {v : ℚ} (hx : Stands x s v) : 0 < v := by
  obtain ⟨m, e, h, -, -, rfl⟩ := hx
  positivity

theorem Stands.isInf {x : Float} {s : Sign} {v : ℚ} (hx : Stands x s v) : x.isInf = false := by
  obtain ⟨m, e, h, hx, -, -⟩ := hx
  show x.toModel.unpack.isInf = false
  rw [hx]
  rfl

/-- A power of ten that is read is far from both ends of the range. -/
theorem Near.bounds {p : ℚ} {k : ℕ} (hp : Near p (10 ^ k)) (hk : k ≤ 45) :
    1 / 2 ≤ p ∧ p ≤ 2 ^ 151 := by
  have h1 : (1 : ℚ) ≤ 10 ^ k := one_le_pow₀ (by norm_num)
  have h2 : (10 : ℚ) ^ k ≤ 10 ^ 45 := pow_le_pow_right₀ (by norm_num) hk
  obtain ⟨hl, hu⟩ := abs_le.1 (le_refl |p - 10 ^ k|)
  have := hp.1
  norm_num at this h2 ⊢
  constructor <;> linarith

/-! ## Scaling -/

/-- A number computed from a power of ten that is off by half a place, and rounded once more. -/
theorem Rounded.stands_scaled {s : Sign} {y y₀ : ℚ} {u : UnpackedFloat} {exactly : Prop}
    (h : Rounded .binary64 s y₀ u) (hlow : 2 ^ (-1022 : ℤ) ≤ y₀) (hhigh : y₀ < 2 ^ (1023 : ℤ))
    (hy : 0 ≤ y) (hclose : |y₀ - y| * 2 ^ 53 ≤ y) (hexact : exactly → y₀ = y) :
    ∃ v, Stands (.ofModel (.pack u)) s v ∧ |v - y| * 2 ^ 54 ≤ 5 * y ∧
      (exactly → Exact y → v = y) := by
  by_cases hx : exactly ∧ Exact y
  · obtain rfl := hexact hx.1
    refine ⟨y₀, h.stands_exact hx.2, ?_, fun _ _ => rfl⟩
    rw [sub_self, abs_zero, zero_mul]
    linarith
  · obtain ⟨v, hv, hnear, -⟩ := h.stands_near hlow hhigh
    refine ⟨v, hv, ?_, fun he hy => absurd ⟨he, hy⟩ hx⟩
    have htri := abs_sub_le v y₀ y
    have hle := le_abs_self (y₀ - y)
    norm_num at hnear hclose ⊢
    linarith

open Json (shrink realOf)

theorem shrink_near {n k : ℕ} (hn : 0 < n) (hlt : n < 2 ^ 53) (hk : k ≤ 45) :
    ∃ v, Stands (shrink n.toUInt64.toFloat k) .positive v ∧
      |v - n / 10 ^ k| * 2 ^ 54 ≤ 5 * (n / 10 ^ k) ∧
      (k ≤ 22 → Exact (n / 10 ^ k) → v = n / 10 ^ k) := by
  obtain ⟨p, hp, hnear, hexact⟩ := stands_powerOfTen hk
  obtain ⟨hpl, hpu⟩ := hnear.bounds hk
  have hp0 := hp.pos
  have hn1 : (1 : ℚ) ≤ n := by exact_mod_cast hn
  have hn2 : (n : ℚ) < 2 ^ 53 := by exact_mod_cast hlt
  have hlow : (2 : ℚ) ^ (-1022 : ℤ) ≤ n / p := calc
    (2 : ℚ) ^ (-1022 : ℤ) ≤ 2 ^ (-151 : ℤ) := zpow_le_zpow_right₀ (by norm_num) (by norm_num)
    _ = 1 / 2 ^ 151 := by norm_num
    _ ≤ n / p := div_le_div₀ (by positivity) hn1 hp0 hpu
  have hhigh : (n : ℚ) / p < 2 ^ (1023 : ℤ) := calc
    (n : ℚ) / p ≤ 2 ^ 53 / (1 / 2) := div_le_div₀ (by positivity) hn2.le (by norm_num) hpl
    _ = 2 ^ (54 : ℤ) := by norm_num
    _ < 2 ^ (1023 : ℤ) := zpow_lt_zpow_right₀ (by norm_num) (by norm_num)
  obtain ⟨u, hu, hdiv⟩ := (stands_toFloat hn hlt).div hp
  rw [shrink, if_pos (by simp only [Json.powerLimit]; omega), hdiv]
  refine hu.stands_scaled hlow hhigh (by positivity) ?_ fun hk => by rw [hexact hk]
  have hten : (0 : ℚ) < 10 ^ k := by positivity
  have hsplit : (n : ℚ) / p - n / 10 ^ k = n / 10 ^ k * ((10 ^ k - p) / p) := by
    field_simp
  have hratio : |10 ^ k - p| / p * 2 ^ 53 ≤ 1 := by
    rw [div_mul_eq_mul_div, div_le_one hp0, abs_sub_comm]
    exact hnear.2
  have hpos : (0 : ℚ) < n / 10 ^ k := by positivity
  rw [hsplit, abs_mul, abs_of_pos hpos, abs_div, abs_of_pos hp0, mul_assoc]
  exact mul_le_of_le_one_right hpos.le hratio

theorem mul_powerOfTen_near {n k : ℕ} (hn : 0 < n) (hlt : n < 2 ^ 53) (hk : k ≤ 45) :
    ∃ v, Stands (n.toUInt64.toFloat * powerOfTen k) .positive v ∧
      |v - n * 10 ^ k| * 2 ^ 54 ≤ 5 * (n * 10 ^ k) ∧
      (k ≤ 22 → Exact (n * 10 ^ k) → v = n * 10 ^ k) := by
  obtain ⟨p, hp, hnear, hexact⟩ := stands_powerOfTen hk
  obtain ⟨hpl, hpu⟩ := hnear.bounds hk
  have hp0 := hp.pos
  have hn1 : (1 : ℚ) ≤ n := by exact_mod_cast hn
  have hn2 : (n : ℚ) < 2 ^ 53 := by exact_mod_cast hlt
  have hlow : (2 : ℚ) ^ (-1022 : ℤ) ≤ n * p := calc
    (2 : ℚ) ^ (-1022 : ℤ) ≤ 2 ^ (-1 : ℤ) := zpow_le_zpow_right₀ (by norm_num) (by norm_num)
    _ = 1 * (1 / 2) := by norm_num
    _ ≤ n * p := mul_le_mul hn1 hpl (by norm_num) (by positivity)
  have hhigh : (n : ℚ) * p < 2 ^ (1023 : ℤ) := calc
    (n : ℚ) * p ≤ 2 ^ 53 * 2 ^ 151 := mul_le_mul hn2.le hpu hp0.le (by positivity)
    _ = 2 ^ (204 : ℤ) := by norm_num
    _ < 2 ^ (1023 : ℤ) := zpow_lt_zpow_right₀ (by norm_num) (by norm_num)
  obtain ⟨u, hu, hmul⟩ := (stands_toFloat hn hlt).mul hp
  rw [hmul]
  refine hu.stands_scaled hlow hhigh (by positivity) ?_ fun hk => by rw [hexact hk]
  rw [← mul_sub, abs_mul, abs_of_pos (by positivity), mul_assoc]
  exact mul_le_mul_of_nonneg_left hnear.1 (by positivity)

/-- The sign of a number as it is written. -/
def signOf (negative : Bool) : Sign := if negative then .negative else .positive

theorem stands_signed {x : Float} {v : ℚ} (negative : Bool) (hx : Stands x .positive v) :
    Stands (if negative then -x else x) (signOf negative) v := by
  cases negative with
  | false => exact hx
  | true => exact hx.neg

/-- What is read as a significand and an exponent is off by at most two and a half half places, and
    not at all where the power of ten and the number are exact. -/
theorem realOf_near (negative : Bool) {n : ℕ} {e : ℤ} (hn : 0 < n) (hlt : n < 2 ^ 53)
    (he : e.natAbs ≤ 45) :
    ∃ x v, realOf negative n e = .ok x ∧ Stands x (signOf negative) v ∧
      |v - n * 10 ^ e| * 2 ^ 54 ≤ 5 * (n * 10 ^ e) ∧
      (e.natAbs ≤ 22 → Exact (n * 10 ^ e) → v = n * 10 ^ e) := by
  obtain hneg | hpos := lt_or_ge e 0
  · have hpow : (n : ℚ) * 10 ^ e = n / 10 ^ e.natAbs := by
      rw [div_eq_mul_inv, ← zpow_natCast, ← zpow_neg]
      congr 2
      omega
    obtain ⟨v, hv, hnear⟩ := shrink_near hn hlt he
    rw [hpow]
    refine ⟨_, v, ?_, stands_signed negative hv, hnear⟩
    rw [realOf, if_pos hneg]
    rfl
  · have hpow : (n : ℚ) * 10 ^ e = n * 10 ^ e.natAbs := by
      rw [← zpow_natCast]
      congr 2
      omega
    obtain ⟨v, hv, hnear⟩ := mul_powerOfTen_near hn hlt he
    rw [hpow]
    refine ⟨_, v, ?_, stands_signed negative hv, hnear⟩
    rw [realOf, if_neg (by omega), if_pos (by simp only [Json.powerLimit]; omega)]
    simp only [hv.isInf]
    rfl

/-- Narrowing rounds once. -/
theorem narrow_of_stands {x : Float} {s : Sign} {v : ℚ} {m : ℕ} {e : ℤ} (hx : Stands x s v)
    (hv : RoundsTo .binary32 v m e) :
    Binary32.narrow x = .ofModel (.pack (.finite s m e hv.pos)) := by
  obtain ⟨m', e', h, hx, -, rfl⟩ := hx
  rw [Binary32.narrow, hx]
  dsimp only
  rw [(round_rounded s h e').eq_finite hv]

end Relief.Binary
