import Relief.Proofs.Scaling
import Relief.Proofs.Shortest
import Relief.Proofs.Separation

set_option autoImplicit false

/-! # Shortest decimals are read back

A number of single precision is written with its shortest decimal and read by way of double
precision, which is off by up to two and a half parts in `2 ^ 53`. The decimal lies among the
numbers that round to the one written. If it lies at an end of them, it is read without error. If it
lies close to an end, its grid is coarser than half a place, and then it is farther from the end
than the error reaches (`separated`). The six numbers beside the tight ends are read back one by
one. So every number comes back (`narrow_realOf`). -/

namespace Relief.Decimal

open Float.Model (Format UnpackedFloat)
open Float.Model.UnpackedFloat (Sign)
open Binary

variable {m : ℕ} {e : ℤ}

/-! ## The ends of a basin -/

theorem half_zpow (e : ℤ) : (2 : ℚ) ^ e = 2 * 2 ^ (e - 1) := by
  rw [← zpow_one_add₀ two_ne_zero]
  congr 1
  omega

/-- The upper end is an odd multiple of the distance to it. -/
theorem upperEnd_eq_mul (m : ℕ) (e : ℤ) : upperEnd m e = (2 * m + 1 : ℕ) * 2 ^ (e - 1) := by
  rw [upperEnd_eq, half_zpow e]
  push_cast
  ring

theorem upperEnd_sub (m : ℕ) (e : ℤ) : upperEnd m e - m * 2 ^ e = 2 ^ (e - 1) := by
  rw [upperEnd_eq, half_zpow e]
  ring

theorem lowerEnd_binary32 (m : ℕ) (e : ℤ) : lowerEnd .binary32 m e =
    (if m = 2 ^ 23 ∧ -149 < e then 4 * (m : ℚ) - 1 else 4 * m - 2) * 2 ^ (e - 2) := rfl

/-- So is the lower end, which is nearer below a leading power of two. -/
theorem lowerEnd_cases (hc : Canonical .binary32 m e) :
    ∃ (n : ℕ) (j : ℤ), lowerEnd .binary32 m e = n * 2 ^ j ∧
      m * 2 ^ e - lowerEnd .binary32 m e = 2 ^ j ∧
      (n = 2 * m - 1 ∧ j = e - 1 ∨ n = 4 * m - 1 ∧ j = e - 2 ∧ m = 2 ^ 23 ∧ -149 < e) := by
  have hpos := hc.pos
  by_cases hq : m = 2 ^ 23 ∧ -149 < e
  · have hlower : lowerEnd .binary32 m e = (4 * m - 1) * 2 ^ (e - 2) := by
      rw [lowerEnd_binary32, if_pos hq]
    refine ⟨4 * m - 1, e - 2, ?_, ?_, .inr ⟨rfl, rfl, hq⟩⟩
    · rw [hlower, Nat.cast_sub (by omega)]
      push_cast
      rfl
    · rw [hlower, ← four_mul_zpow e]
      ring
  · have hlower : lowerEnd .binary32 m e = (2 * m - 1) * 2 ^ (e - 1) := by
      rw [lowerEnd_binary32, if_neg hq, half_zpow (e - 1), sub_sub]
      norm_num
      ring
    refine ⟨2 * m - 1, e - 1, ?_, ?_, .inl ⟨rfl, rfl⟩⟩
    · rw [hlower, Nat.cast_sub (by omega)]
      push_cast
      rfl
    · rw [hlower, half_zpow e]
      ring

/-! ## Ties -/

theorem five_pow_dvd {d n : ℕ} {x y z : ℕ} (h : d * 2 ^ x = n * 2 ^ y * 10 ^ z) : 5 ^ z ∣ d := by
  have hdvd : 5 ^ z ∣ d * 2 ^ x := by
    rw [h, show 10 = 5 * 2 by norm_num, Nat.mul_pow, ← mul_assoc]
    exact (Nat.dvd_mul_left _ _).mul_right _
  exact (Nat.Coprime.pow z x (by decide)).dvd_of_dvd_mul_right hdvd

/-- A decimal that is equal to an end has a small exponent: its digits or those of the end are a
    multiple of a power of five. -/
theorem natAbs_le_of_eq_end {d n : ℕ} {j k : ℤ} (hd : 0 < d) (hdlt : d < 2 ^ 53) (hn : 0 < n)
    (hnlt : n < 2 ^ 53) (h : (d : ℚ) * 10 ^ k = n * 2 ^ j) : k.natAbs ≤ 22 := by
  have hten := zpow_mul_pow_toNat (by norm_num : (10 : ℚ) ≠ 0) k
  have htwo := zpow_mul_pow_toNat (two_ne_zero (α := ℚ)) j
  have hwhole : d * 10 ^ k.toNat * 2 ^ (-j).toNat = n * 2 ^ j.toNat * 10 ^ (-k).toNat := by
    have : (d * 10 ^ k.toNat * 2 ^ (-j).toNat : ℚ) = n * 2 ^ j.toNat * 10 ^ (-k).toNat := by
      rw [← hten, ← htwo]
      linear_combination (10 : ℚ) ^ (-k).toNat * 2 ^ (-j).toNat * h
    exact_mod_cast this
  have hbound {z c : ℕ} (hc : 0 < c) (hlt : c < 2 ^ 53) (hdvd : 5 ^ z ∣ c) : z ≤ 22 := by
    by_contra hz
    have h23 : 5 ^ 23 ≤ 5 ^ z := Nat.pow_le_pow_right (by norm_num) (by omega)
    have := Nat.le_of_dvd hc hdvd
    omega
  obtain hneg | hpos := le_or_gt k 0
  · rw [show k.toNat = 0 by omega, pow_zero, mul_one] at hwhole
    have := hbound hd hdlt (five_pow_dvd hwhole)
    omega
  · rw [show (-k).toNat = 0 by omega, pow_zero, mul_one] at hwhole
    have := hbound hn hnlt (five_pow_dvd (hwhole.symm.trans (mul_right_comm _ _ _)))
    omega

/-! ## Close numbers -/

/-- An end `n · 2 ^ j` of single precision that keeps away from decimals. -/
structure Ordinary (n : ℕ) (j : ℤ) : Prop where
  pos : 0 < n
  lt : n < 2 ^ 25
  low : -150 ≤ j
  high : j ≤ 103
  notMem : (j, n) ∉ tight

/-- A number close to a decimal is on the same side of an end. -/
theorem Ordinary.lt_apart {v : ℚ} {d n : ℕ} {j k : ℤ} (h : Ordinary n j)
    (hne : (d : ℚ) * 10 ^ k ≠ n * 2 ^ j)
    (hgrid : 2 * |(d : ℚ) * 10 ^ k - n * 2 ^ j| < 2 ^ j → (2 : ℚ) ^ j < 10 ^ k)
    (hclose : |v - d * 10 ^ k| * 2 ^ 54 ≤ 5 * (d * 10 ^ k)) :
    |v - d * 10 ^ k| < |(d : ℚ) * 10 ^ k - n * 2 ^ j| := by
  by_contra hge
  rw [not_lt] at hge
  have hpow : (0 : ℚ) < 2 ^ j := by positivity
  have hn' : (n : ℚ) < 2 ^ 25 := by exact_mod_cast h.lt
  have hend : (n : ℚ) * 2 ^ j < 2 ^ 25 * 2 ^ j := by gcongr
  have hself := le_abs_self ((d : ℚ) * 10 ^ k - n * 2 ^ j)
  have hpos : (0 : ℚ) < n * 2 ^ j := mul_pos (by exact_mod_cast h.pos) hpow
  have hgrid' := hgrid (by norm_num at hclose hend ⊢; linarith)
  have hapart := separated h.low h.high hgrid' h.pos h.lt hne h.notMem
  norm_num at hclose hapart
  linarith

/-- A decimal that is equal to an end is read without any error. -/
theorem Ordinary.eq_of_tie {v : ℚ} {d n : ℕ} {j k : ℤ} (h : Ordinary n j) (hpos : 0 < d)
    (hd : d < 2 ^ 53) (hexact : k.natAbs ≤ 22 → Exact (d * 10 ^ k) → v = d * 10 ^ k)
    (htie : (d : ℚ) * 10 ^ k = n * 2 ^ j) : v = d * 10 ^ k := by
  have hlow := h.low
  have hhigh := h.high
  have hwide : n < 2 ^ 53 := h.lt.trans (by norm_num)
  exact hexact (natAbs_le_of_eq_end hpos hd h.pos hwide htie)
    ⟨n, j, h.pos, hwide, by omega, by omega, htie⟩

/-- Whether one of a number's ends is tight. -/
def BesideTight (m : ℕ) (e : ℤ) : Prop :=
  (e - 1, 2 * m + 1) ∈ tight ∨ (e - 1, 2 * m - 1) ∈ tight

theorem notMem_tight_power (j : ℤ) : (j, 4 * 2 ^ 23 - 1) ∉ tight := by
  simp [tight]

theorem ordinary_upperEnd (hc : Canonical .binary32 m e) (he : e ≤ 104)
    (htight : ¬ BesideTight m e) : Ordinary (2 * m + 1) (e - 1) := by
  have hlt : m < 2 ^ 24 := hc.lt
  have hleast : -149 ≤ e := hc.least
  rw [BesideTight, not_or] at htight
  exact ⟨by omega, by omega, by omega, by omega, htight.1⟩

/-- The lower end is at most as far from the number as the upper one, and at least half as far. -/
theorem exists_lowerEnd (hc : Canonical .binary32 m e) (he : e ≤ 104)
    (htight : ¬ BesideTight m e) :
    ∃ (n : ℕ) (j : ℤ), Ordinary n j ∧ lowerEnd .binary32 m e = n * 2 ^ j ∧
      m * 2 ^ e - lowerEnd .binary32 m e = 2 ^ j ∧
      (2 : ℚ) ^ j ≤ 2 ^ (e - 1) ∧ (2 : ℚ) ^ (e - 1) ≤ 2 * 2 ^ j := by
  have hpos := hc.pos
  have hlt : m < 2 ^ 24 := hc.lt
  have hleast : -149 ≤ e := hc.least
  obtain ⟨n, j, hlower, hbelow, hcases⟩ := lowerEnd_cases hc
  rw [BesideTight, not_or] at htight
  have hj : j ≤ e - 1 ∧ e - 1 ≤ 1 + j := by omega
  refine ⟨n, j, ?_, hlower, hbelow, zpow_le_zpow_right₀ one_le_two hj.1, ?_⟩
  · obtain ⟨rfl, rfl⟩ | ⟨rfl, rfl, rfl, hmin⟩ := hcases
    · exact ⟨by omega, by omega, by omega, by omega, htight.2⟩
    · exact ⟨by omega, by omega, by omega, by omega, notMem_tight_power _⟩
  · rw [← zpow_one_add₀ two_ne_zero]
    exact zpow_le_zpow_right₀ one_le_two hj.2

/-- What is close to the shortest decimal of a number rounds to the number. -/
theorem roundsTo_of_close {v : ℚ} {d : ℕ} {k : ℤ} (hc : Canonical .binary32 m e) (he : e ≤ 104)
    (hfound : (Basin.ofFinite .binary32 m e).nearest? k = some d) (hd : d < 2 ^ 53)
    (hclose : |v - d * 10 ^ k| * 2 ^ 54 ≤ 5 * (d * 10 ^ k))
    (hexact : k.natAbs ≤ 22 → Exact (d * 10 ^ k) → v = d * 10 ^ k)
    (htight : ¬ BesideTight m e) : RoundsTo .binary32 v m e := by
  have hY := roundsTo_of_nearest? hc hfound
  have hdpos := digits_pos_of_roundsTo hY
  have hupper := upperEnd_eq_mul m e
  have hup := ordinary_upperEnd hc he htight
  obtain ⟨n, j, hlow, hlower, hbelow, hjle, hjge⟩ := exists_lowerEnd hc he htight
  rw [← hbelow, ← upperEnd_sub m e] at hjle hjge
  by_cases hhighTie : (d : ℚ) * 10 ^ k = upperEnd m e
  · rwa [hup.eq_of_tie hdpos hd hexact (hhighTie.trans hupper)]
  by_cases hlowTie : (d : ℚ) * 10 ^ k = lowerEnd .binary32 m e
  · rwa [hlow.eq_of_tie hdpos hd hexact (hlowTie.trans hlower)]
  have hbelowHigh : (d : ℚ) * 10 ^ k < upperEnd m e := lt_of_le_of_ne hY.upper hhighTie
  have haboveLow : lowerEnd .binary32 m e < d * 10 ^ k :=
    lt_of_le_of_ne hY.lower (Ne.symm hlowTie)
  refine hc.roundsTo_of_lt ?_ ?_
  · have hlt := hlow.lt_apart (hlower ▸ hlowTie) (fun hnear => ?_) hclose
    · rw [← hlower, abs_of_pos (sub_pos.2 haboveLow)] at hlt
      linarith [neg_abs_le (v - d * 10 ^ k)]
    · rw [← hlower, ← hbelow, abs_of_pos (sub_pos.2 haboveLow)] at hnear
      rw [← hbelow]
      exact lt_of_near_lowerEnd hc hfound hnear hjle
  · have hlt := hup.lt_apart (hupper ▸ hhighTie) (fun hnear => ?_) hclose
    · rw [← hupper, abs_of_neg (sub_neg.2 hbelowHigh)] at hlt
      linarith [le_abs_self (v - d * 10 ^ k)]
    · rw [← hupper, ← upperEnd_sub m e, abs_of_neg (sub_neg.2 hbelowHigh), neg_sub] at hnear
      rw [← upperEnd_sub m e]
      exact lt_of_near_upperEnd hc hfound hnear hjge

/-! ## Reading back -/

open Json (realOf)

/-- A significand and an exponent that stand for a decimal in a document: its own, or those of the
    whole number with a zero behind the point. -/
inductive Form (d : Decimal) : ℕ → ℤ → Prop
  | own : Form d d.digits d.exponent
  | pointZero (h : 0 ≤ d.exponent) (hlt : d.digits * 10 ^ (d.exponent + 1).toNat < 2 ^ 53) :
      Form d (d.digits * 10 ^ (d.exponent + 1).toNat) (-1)

theorem Form.value_eq {d : Decimal} {n : ℕ} {k : ℤ} (h : Form d n k) :
    (n : ℚ) * 10 ^ k = d.digits * 10 ^ d.exponent := by
  cases h with
  | own => rfl
  | pointZero h hlt =>
    have hsucc : (10 : ℚ) ^ (d.exponent + 1).toNat = 10 ^ d.exponent * 10 := by
      rw [← zpow_natCast, ← zpow_add_one₀ (by norm_num)]
      congr 1
      omega
    push_cast
    rw [hsucc, zpow_neg_one]
    ring

/-- Whether the shortest decimal of a number is read back as the number. -/
def rereads (negative : Bool) (m : ℕ) (e : ℤ) (hm : 0 < m) : Bool :=
  let d := shortest .binary32 m e
  decide (d.exponent < 0) &&
    match realOf negative d.digits d.exponent with
    | .ok x => decide ((Binary32.narrow x).toModel = .pack (.finite (signOf negative) m e hm))
    | .error _ => false

theorem exists_of_rereads {negative : Bool} {hm : 0 < m} (h : rereads negative m e hm = true) :
    let d := shortest .binary32 m e
    d.exponent < 0 ∧ ∃ x, realOf negative d.digits d.exponent = .ok x ∧
      Binary32.narrow x = .ofModel (.pack (.finite (signOf negative) m e hm)) := by
  rw [rereads, Bool.and_eq_true, decide_eq_true_eq] at h
  obtain ⟨hneg, h⟩ := h
  refine ⟨hneg, ?_⟩
  split at h
  · next x hx => exact ⟨x, hx, congrArg Float32.ofModel (of_decide_eq_true h)⟩
  · cases h

/-- The numbers beside the tight ends are few enough to be read back one by one. -/
theorem rereads_beside : ∀ negative : Bool,
    rereads negative 11420669 (-107) (by decide) = true ∧
    rereads negative 11420669 (-106) (by decide) = true ∧
    rereads negative 14437329 (-49) (by decide) = true ∧
    rereads negative 11420670 (-107) (by decide) = true ∧
    rereads negative 11420670 (-106) (by decide) = true ∧
    rereads negative 14437330 (-49) (by decide) = true := by
  decide +kernel

theorem rereads_of_besideTight (h : BesideTight m e) (hm : 0 < m) (negative : Bool) :
    rereads negative m e hm = true := by
  obtain ⟨h₁, h₂, h₃, h₄, h₅, h₆⟩ := rereads_beside negative
  have hcases : (e = -107 ∨ e = -106) ∧ (m = 11420669 ∨ m = 11420670) ∨
      e = -49 ∧ (m = 14437329 ∨ m = 14437330) := by
    simp only [BesideTight, tight, List.mem_cons, Prod.mk.injEq, List.not_mem_nil, or_false] at h
    omega
  obtain ⟨rfl | rfl, rfl | rfl⟩ | ⟨rfl, rfl | rfl⟩ := hcases
  · exact h₁
  · exact h₄
  · exact h₂
  · exact h₅
  · exact h₃
  · exact h₆

/-- The shortest decimal of a number is read back as the number. -/
theorem narrow_realOf (negative : Bool) (hc : Canonical .binary32 m e) (he : e ≤ 104) {n : ℕ}
    {k : ℤ} (hform : Form (shortest .binary32 m e) n k) :
    ∃ x, realOf negative n k = .ok x ∧
      Binary32.narrow x = .ofModel (.pack (.finite (signOf negative) m e hc.pos)) := by
  by_cases htight : BesideTight m e
  · obtain ⟨hneg, x, hx⟩ := exists_of_rereads (rereads_of_besideTight htight hc.pos negative)
    cases hform with
    | own => exact ⟨x, hx⟩
    | pointZero hnonneg => exact absurd hneg (not_lt.2 hnonneg)
  · obtain ⟨d, hd, hlow, hhigh, hdigits, hfound⟩ := shortest_binary32 hc he
    rw [hd] at hform
    have hpos := digits_pos_of_roundsTo (roundsTo_of_nearest? hc hfound)
    have hvalue := hform.value_eq
    have hbounds : 0 < n ∧ n < 2 ^ 53 ∧ k.natAbs ≤ 45 ∧
        (d.exponent.natAbs ≤ 22 → k.natAbs ≤ 22) := by
      cases hform with
      | own => exact ⟨hpos, hdigits, by omega, id⟩
      | pointZero h hlt => exact ⟨by positivity, hlt, by norm_num, fun _ => by norm_num⟩
    obtain ⟨hn, hnlt, hk, hsmall⟩ := hbounds
    obtain ⟨x, v, hx, hv, hclose, hexact⟩ := realOf_near negative hn hnlt hk
    rw [hvalue] at hclose hexact
    have hrounds := roundsTo_of_close hc he hfound hdigits hclose
      (fun h => hexact (hsmall h)) htight
    exact ⟨x, hx, narrow_of_stands hv hrounds⟩

end Relief.Decimal
