import Mathlib.Tactic.Linarith
import Mathlib.Tactic.Positivity
import Mathlib.Tactic.LinearCombination
import Mathlib.Algebra.Order.Field.Power
import Mathlib.RingTheory.Coprime.Lemmas

set_option autoImplicit false

/-! # Decimals keep their distance from binary ends

A decimal that is read by way of double precision is off by a few parts in `2 ^ 53`. That matters
only near an end `n · 2 ^ j` of the numbers that round to one of single precision, and there are
few such ends: `n` has 25 bits and `j` one of 254 values. For each `j` the question is how near a
fraction with a denominator below `2 ^ 25` comes to one fixed ratio of a power of two and a power of
ten. The neighbours of the ratio among these fractions answer it for all `n` at once
(`Bracket.Encloses.outside`). They are computed and checked row by row (`rowClear_of_lt`), and all
but three ends turn out to keep away from every decimal of a coarser grid (`separated`). -/

namespace Relief.Decimal

/-! ## Neighbours -/

/-- Two fractions `p₁ / q₁` and `p₂ / q₂`, one to each side of a ratio. -/
structure Bracket where
  p₁ : ℕ
  q₁ : ℕ
  p₂ : ℕ
  q₂ : ℕ

/-- The neighbours of the ratio `p / q` among the fractions with a denominator below `2 ^ 25`. -/
structure Bracket.Encloses (b : Bracket) (p q : ℕ) : Prop where
  lower : b.p₁ * q ≤ p * b.q₁
  upper : p * b.q₂ ≤ b.p₂ * q
  adjacent : b.p₂ * b.q₁ = b.p₁ * b.q₂ + 1
  wide : 2 ^ 25 ≤ b.q₁ + b.q₂

instance (b : Bracket) (p q : ℕ) : Decidable (b.Encloses p q) :=
  decidable_of_iff (b.p₁ * q ≤ p * b.q₁ ∧ p * b.q₂ ≤ b.p₂ * q ∧
      b.p₂ * b.q₁ = b.p₁ * b.q₂ + 1 ∧ 2 ^ 25 ≤ b.q₁ + b.q₂)
    ⟨fun ⟨h₁, h₂, h₃, h₄⟩ => ⟨h₁, h₂, h₃, h₄⟩, fun ⟨h₁, h₂, h₃, h₄⟩ => ⟨h₁, h₂, h₃, h₄⟩⟩

/-- Between neighbours there is no other fraction with a small denominator. -/
theorem Bracket.Encloses.outside {b : Bracket} {p q : ℕ} (h : b.Encloses p q) (d : ℕ) {n : ℕ}
    (hn : n < 2 ^ 25) : d * b.q₁ ≤ b.p₁ * n ∨ b.p₂ * n ≤ d * b.q₂ := by
  by_contra hboth
  rw [not_or, not_le, not_le] at hboth
  obtain ⟨x, hx⟩ := Nat.le.dest hboth.1
  obtain ⟨y, hy⟩ := Nat.le.dest hboth.2
  -- `n` is a combination of both denominators, and so not below their sum
  have hcomb : n = b.q₂ * (x + 1) + b.q₁ * (y + 1) := by
    have hl : b.q₂ * (b.p₁ * n + 1 + x) = b.q₂ * (d * b.q₁) := congrArg _ hx
    have hu : b.q₁ * (d * b.q₂ + 1 + y) = b.q₁ * (b.p₂ * n) := congrArg _ hy
    have hadj : b.p₂ * b.q₁ * n = (b.p₁ * b.q₂ + 1) * n := congrArg (· * n) h.adjacent
    linarith
  have hl : b.q₂ ≤ b.q₂ * (x + 1) := Nat.le_mul_of_pos_right _ (Nat.succ_pos x)
  have hu : b.q₁ ≤ b.q₁ * (y + 1) := Nat.le_mul_of_pos_right _ (Nat.succ_pos y)
  have := h.wide
  omega

theorem Bracket.Encloses.coprime {b : Bracket} {p q : ℕ} (h : b.Encloses p q) :
    Nat.Coprime b.q₁ b.p₁ ∧ Nat.Coprime b.q₂ b.p₂ := by
  have hadj : (b.p₂ * b.q₁ : ℤ) = b.p₁ * b.q₂ + 1 := by exact_mod_cast h.adjacent
  rw [← Nat.isCoprime_iff_coprime, ← Nat.isCoprime_iff_coprime]
  exact ⟨⟨b.p₂, -b.q₂, by linarith⟩, ⟨-b.p₁, b.q₁, by linarith⟩⟩

/-- How far a fraction below the ratio is from it: as far as the neighbour, and farther by a whole
    number of steps, which is zero only for the neighbour itself. -/
theorem Bracket.Encloses.apart_below {b : Bracket} {p q : ℕ} (h : b.Encloses p q) {d n : ℕ}
    (hl : d * b.q₁ ≤ b.p₁ * n) :
    ∃ x, ((d * q : ℕ) - (n * p : ℕ) : ℤ).natAbs * b.q₁ = n * (p * b.q₁ - b.p₁ * q) + x * q ∧
      (x = 0 → b.q₁ ∣ n) := by
  obtain ⟨x, hx⟩ := Nat.le.dest hl
  obtain ⟨gap, hgap⟩ := Nat.le.dest h.lower
  have hid : ((d * q : ℕ) - (n * p : ℕ) : ℤ) * b.q₁ = -((n * gap + x * q : ℕ) : ℤ) := by
    have hx' : (d * b.q₁ + x : ℤ) = b.p₁ * n := by exact_mod_cast hx
    have hgap' : (b.p₁ * q + gap : ℤ) = p * b.q₁ := by exact_mod_cast hgap
    push_cast
    linear_combination (q : ℤ) * hx' + (n : ℤ) * hgap'
  have hapart := congrArg Int.natAbs hid
  rw [Int.natAbs_mul, Int.natAbs_neg, Int.natAbs_natCast, Int.natAbs_natCast] at hapart
  rw [Nat.sub_eq_of_eq_add' hgap.symm]
  refine ⟨x, hapart, fun h0 => ?_⟩
  rw [h0, add_zero] at hx
  exact h.coprime.1.dvd_of_dvd_mul_left (Dvd.intro_left d hx)

@[inherit_doc Bracket.Encloses.apart_below]
theorem Bracket.Encloses.apart_above {b : Bracket} {p q : ℕ} (h : b.Encloses p q) {d n : ℕ}
    (hu : b.p₂ * n ≤ d * b.q₂) :
    ∃ x, ((d * q : ℕ) - (n * p : ℕ) : ℤ).natAbs * b.q₂ = n * (b.p₂ * q - p * b.q₂) + x * q ∧
      (x = 0 → b.q₂ ∣ n) := by
  obtain ⟨x, hx⟩ := Nat.le.dest hu
  obtain ⟨gap, hgap⟩ := Nat.le.dest h.upper
  have hid : ((d * q : ℕ) - (n * p : ℕ) : ℤ) * b.q₂ = (n * gap + x * q : ℕ) := by
    have hx' : (b.p₂ * n + x : ℤ) = d * b.q₂ := by exact_mod_cast hx
    have hgap' : (p * b.q₂ + gap : ℤ) = b.p₂ * q := by exact_mod_cast hgap
    push_cast
    linear_combination -(q : ℤ) * hx' - (n : ℤ) * hgap'
  have hapart := congrArg Int.natAbs hid
  rw [Int.natAbs_mul, Int.natAbs_natCast, Int.natAbs_natCast] at hapart
  rw [Nat.sub_eq_of_eq_add' hgap.symm]
  refine ⟨x, hapart, fun h0 => ?_⟩
  rw [h0, add_zero] at hx
  exact h.coprime.2.dvd_of_dvd_mul_left (Dvd.intro_left d hx.symm)

/-- Two different multiples are apart by the greatest common divisor. -/
theorem gcd_le_apart {p q d n : ℕ} (hne : d * q ≠ n * p) :
    Nat.gcd p q ≤ ((d * q : ℕ) - (n * p : ℕ) : ℤ).natAbs := by
  have hdvd : Nat.gcd p q ∣ ((d * q : ℕ) - (n * p : ℕ) : ℤ).natAbs := by
    rw [← Int.natCast_dvd]
    exact dvd_sub (Int.natCast_dvd_natCast.2 ((Nat.gcd_dvd_right _ _).mul_left d))
      (Int.natCast_dvd_natCast.2 ((Nat.gcd_dvd_left _ _).mul_left n))
  exact Nat.le_of_dvd (by omega) hdvd

/-- One run of mediants to each side, as long as the denominators stay small. -/
def Bracket.narrow (p q : ℕ) : (fuel : ℕ) → Bracket → Bracket
  | 0, b => b
  | fuel + 1, b =>
    if 2 ^ 25 ≤ b.q₁ + b.q₂ then b
    else
      let low := p * b.q₁ - b.p₁ * q
      let high := b.p₂ * q - p * b.q₂
      if high ≤ low then
        let runs := min (low / high) ((2 ^ 25 - 1 - b.q₁) / b.q₂)
        narrow p q fuel ⟨b.p₁ + runs * b.p₂, b.q₁ + runs * b.q₂, b.p₂, b.q₂⟩
      else
        let runs := min (high / low) ((2 ^ 25 - 1 - b.q₂) / b.q₁)
        narrow p q fuel ⟨b.p₁, b.q₁, b.p₂ + runs * b.p₁, b.q₂ + runs * b.q₁⟩

/-! ## Binary ends and decimal grids -/

/-- The exponent of the finest decimal grid that is coarser than `2 ^ j`. -/
def coarser (j : ℤ) : ℤ := j * 1233 / 4096 + 1

/-- The ratio of `2 ^ j` to the grid, as a fraction. -/
def ratioTop (j : ℤ) : ℕ := 2 ^ j.toNat * 10 ^ (-coarser j).toNat

@[inherit_doc ratioTop]
def ratioBase (j : ℤ) : ℕ := 2 ^ (-j).toNat * 10 ^ (coarser j).toNat

/-- The ends `n · 2 ^ j` that have a decimal closer to them than two roundings can tell. -/
def tight : List (ℤ × ℕ) := [(-108, 22841339), (-107, 22841339), (-50, 28874659)]

/-- Whether a neighbour is far enough from the ratio, or is a tight end and the only one. -/
def sideClear (j : ℤ) (gap q : ℕ) : Bool :=
  decide (11 * (ratioTop j * q) < 2 ^ 55 * gap) ||
    (tight.contains (j, q) && decide (11 * (ratioTop j * q) ≤ 2 ^ 30 * ratioBase j) &&
      decide (2 ^ 25 ≤ 2 * q))

/-- Whether the ends `n · 2 ^ j` keep their distance from all decimals of coarser grids: the
    ratio has a small denominator, or its neighbours do not come near it. -/
def rowClear (j : ℤ) : Bool :=
  let p := ratioTop j
  let q := ratioBase j
  let b := Bracket.narrow p q 40 ⟨0, 1, 1, 1⟩
  decide ((10 : ℕ) ^ (coarser j - 1).toNat * 2 ^ (-j).toNat
      ≤ 2 ^ j.toNat * 10 ^ (1 - coarser j).toNat) &&
    (decide (11 * p ≤ 2 ^ 30 * Nat.gcd p q) ||
      (decide (b.Encloses p q) && sideClear j (p * b.q₁ - b.p₁ * q) b.q₁ &&
        sideClear j (b.p₂ * q - p * b.q₂) b.q₂))

theorem rowClear_of_lt : ∀ i < 254, rowClear ((i : ℕ) - 150) = true := by
  decide +kernel

theorem ratioTop_pos (j : ℤ) : 0 < ratioTop j := by
  rw [ratioTop]
  positivity

/-- One side of a bracket keeps an end and a decimal apart. -/
theorem apart_of_sideClear {j : ℤ} {gap q n x apart : ℕ} (h : sideClear j gap q = true)
    (hapart : apart * q = n * gap + x * ratioBase j) (hn : 0 < n) (hlt : n < 2 ^ 25)
    (hx : x = 0 → q ∣ n) (htight : (j, n) ∉ tight) :
    11 * (n * ratioTop j) < 2 ^ 55 * apart := by
  refine lt_of_mul_lt_mul_right ?_ (Nat.zero_le q)
  simp only [sideClear, Bool.or_eq_true, Bool.and_eq_true, decide_eq_true_eq,
    List.contains_iff_mem] at h
  obtain h | ⟨⟨hmem, hbase⟩, hhalf⟩ := h
  · calc 11 * (n * ratioTop j) * q = n * (11 * (ratioTop j * q)) := by ring
      _ < n * (2 ^ 55 * gap) := Nat.mul_lt_mul_of_pos_left h hn
      _ = 2 ^ 55 * (n * gap) := by ring
      _ ≤ 2 ^ 55 * (apart * q) := by
          rw [hapart]
          exact Nat.mul_le_mul_left _ (Nat.le_add_right _ _)
      _ = 2 ^ 55 * apart * q := by ring
  · have hx0 : 0 < x := by
      rw [Nat.pos_iff_ne_zero]
      intro h0
      obtain ⟨c, rfl⟩ := hx h0
      have hc : c = 1 := by
        have h1 : 0 < c := Nat.pos_of_mul_pos_left hn
        have h2 : c < 2 := by
          by_contra hge
          have := Nat.mul_le_mul_left q (not_lt.1 hge)
          omega
        omega
      rw [hc, mul_one] at htight
      exact htight hmem
    calc 11 * (n * ratioTop j) * q = n * (11 * (ratioTop j * q)) := by ring
      _ ≤ n * (2 ^ 30 * ratioBase j) := Nat.mul_le_mul_left _ hbase
      _ < 2 ^ 25 * (2 ^ 30 * ratioBase j) := by
          refine Nat.mul_lt_mul_of_pos_right hlt ?_
          rw [ratioBase]
          positivity
      _ = 2 ^ 55 * (1 * ratioBase j) := by ring
      _ ≤ 2 ^ 55 * (apart * q) := by
          rw [hapart]
          exact Nat.mul_le_mul_left _ <|
            (Nat.mul_le_mul_right _ hx0).trans (Nat.le_add_left _ _)
      _ = 2 ^ 55 * apart * q := by ring

/-- The ends of a clear row keep their distance from all decimals of the grid. -/
theorem apart_of_rowClear {j : ℤ} (h : rowClear j = true) {d n : ℕ} (hn : 0 < n)
    (hlt : n < 2 ^ 25) (hne : d * ratioBase j ≠ n * ratioTop j) (htight : (j, n) ∉ tight) :
    11 * (n * ratioTop j) < 2 ^ 55 * ((d * ratioBase j : ℕ) - (n * ratioTop j : ℕ) : ℤ).natAbs := by
  have hpos := ratioTop_pos j
  simp only [rowClear, Bool.and_eq_true, Bool.or_eq_true, decide_eq_true_eq] at h
  obtain ⟨-, hgcd | ⟨⟨hb, hlow⟩, hhigh⟩⟩ := h
  · calc 11 * (n * ratioTop j) = n * (11 * ratioTop j) := by ring
      _ < 2 ^ 25 * (11 * ratioTop j) := Nat.mul_lt_mul_of_pos_right hlt (by omega)
      _ ≤ 2 ^ 25 * (2 ^ 30 * Nat.gcd (ratioTop j) (ratioBase j)) := Nat.mul_le_mul_left _ hgcd
      _ = 2 ^ 55 * Nat.gcd (ratioTop j) (ratioBase j) := by ring
      _ ≤ _ := Nat.mul_le_mul_left _ (gcd_le_apart hne)
  · generalize Bracket.narrow (ratioTop j) (ratioBase j) 40 ⟨0, 1, 1, 1⟩ = b at hb hlow hhigh
    obtain hl | hu := hb.outside d hlt
    · obtain ⟨x, hapart, hx⟩ := hb.apart_below hl
      exact apart_of_sideClear hlow hapart hn hlt hx htight
    · obtain ⟨x, hapart, hx⟩ := hb.apart_above hu
      exact apart_of_sideClear hhigh hapart hn hlt hx htight

/-! ## Separation -/

theorem zpow_mul_pow_toNat {x : ℚ} (hx : x ≠ 0) (j : ℤ) :
    x ^ j * x ^ (-j).toNat = x ^ j.toNat := by
  rw [← zpow_natCast, ← zpow_natCast, ← zpow_add₀ hx]
  congr 1
  omega

theorem ratio_eq (j : ℤ) : (2 : ℚ) ^ j * ratioBase j = ratioTop j * 10 ^ coarser j := by
  have htwo := zpow_mul_pow_toNat (two_ne_zero (α := ℚ)) j
  have hten := zpow_mul_pow_toNat (by norm_num : (10 : ℚ) ≠ 0) (coarser j)
  simp only [ratioBase, ratioTop]
  push_cast
  rw [← mul_assoc, htwo, mul_assoc, mul_comm _ ((10 : ℚ) ^ coarser j), hten]

theorem coarser_le {j k : ℤ} (h : rowClear j = true) (hk : (2 : ℚ) ^ j < 10 ^ k) :
    coarser j ≤ k := by
  simp only [rowClear, Bool.and_eq_true, decide_eq_true_eq] at h
  have hle : (10 : ℚ) ^ (coarser j - 1).toNat * 2 ^ (-j).toNat
      ≤ 2 ^ j.toNat * 10 ^ (1 - coarser j).toNat := by exact_mod_cast h.1
  have htwo := zpow_mul_pow_toNat (two_ne_zero (α := ℚ)) j
  have hten := zpow_mul_pow_toNat (by norm_num : (10 : ℚ) ≠ 0) (coarser j - 1)
  rw [neg_sub] at hten
  rw [← htwo, ← hten] at hle
  have hlow : (10 : ℚ) ^ (coarser j - 1) ≤ 2 ^ j := by
    refine le_of_mul_le_mul_right ?_
      (by positivity : (0 : ℚ) < 10 ^ (1 - coarser j).toNat * 2 ^ (-j).toNat)
    linarith
  have := (zpow_lt_zpow_iff_right₀ (by norm_num : (1 : ℚ) < 10)).1 (hlow.trans_lt hk)
  omega

/-- A decimal of a grid coarser than `2 ^ j` is either equal to the end `n · 2 ^ j` or apart from
    it. -/
theorem separated {j k : ℤ} {d n : ℕ} (hlow : -150 ≤ j) (hhigh : j ≤ 103)
    (hk : (2 : ℚ) ^ j < 10 ^ k) (hn : 0 < n) (hlt : n < 2 ^ 25)
    (hne : (d : ℚ) * 10 ^ k ≠ n * 2 ^ j) (htight : (j, n) ∉ tight) :
    11 * ((n : ℚ) * 2 ^ j) < 2 ^ 55 * |(d : ℚ) * 10 ^ k - n * 2 ^ j| := by
  have hrow : rowClear j = true := by
    have := rowClear_of_lt (j + 150).toNat (by omega)
    rwa [show ((j + 150).toNat : ℤ) - 150 = j by omega] at this
  obtain ⟨t, ht⟩ := Int.le.dest (coarser_le hrow hk)
  have hbase : (0 : ℚ) < ratioBase j := by
    rw [ratioBase]
    positivity
  have hgrid : (0 : ℚ) < 10 ^ coarser j := by positivity
  have hratio := ratio_eq j
  have hpoint : (d : ℚ) * 10 ^ k = (d * 10 ^ t : ℕ) * 10 ^ coarser j := by
    rw [← ht, zpow_add₀ (by norm_num), zpow_natCast]
    push_cast
    ring
  rw [hpoint] at hne ⊢
  generalize d * 10 ^ t = d' at hne
  generalize (10 : ℚ) ^ coarser j = g at *
  have hdiff : ((d' : ℚ) * g - n * 2 ^ j) * ratioBase j
      = ((d' * ratioBase j : ℕ) - (n * ratioTop j : ℕ) : ℤ) * g := by
    push_cast
    linear_combination -(n : ℚ) * hratio
  have hne' : d' * ratioBase j ≠ n * ratioTop j := by
    intro heq
    rw [heq, sub_self, Int.cast_zero, zero_mul] at hdiff
    exact hne (sub_eq_zero.1 ((mul_eq_zero.1 hdiff).resolve_right hbase.ne'))
  have hapart := apart_of_rowClear hrow hn hlt hne' htight
  generalize ((d' * ratioBase j : ℕ) - (n * ratioTop j : ℕ) : ℤ) = diff at hdiff hapart
  have habs : |(d' : ℚ) * g - n * 2 ^ j| * ratioBase j = diff.natAbs * g := by
    have hmul := congrArg abs hdiff
    rw [abs_mul, abs_mul, abs_of_pos hbase, abs_of_pos hgrid] at hmul
    rw [hmul, Nat.cast_natAbs, Int.cast_abs]
  have hcast : (11 * (n * ratioTop j) : ℚ) < 2 ^ 55 * diff.natAbs := by exact_mod_cast hapart
  refine lt_of_mul_lt_mul_right ?_ hbase.le
  calc 11 * ((n : ℚ) * 2 ^ j) * ratioBase j = 11 * (n * ratioTop j) * g := by
        linear_combination 11 * (n : ℚ) * hratio
    _ < 2 ^ 55 * diff.natAbs * g := by gcongr
    _ = 2 ^ 55 * |(d' : ℚ) * g - n * 2 ^ j| * ratioBase j := by
        rw [mul_assoc, mul_assoc, habs]

end Relief.Decimal
