import Relief.Proofs.Rounding
import Relief.Decimal.Shortest

set_option autoImplicit false

/-! # What the search for a shortest decimal finds

The search compares whole numbers. Read as rational numbers, a decimal lies in the basin of a number
exactly if it rounds to it (`holds_iff`), a grid without a hit is at least as wide as the basin, and
of a grid with one the nearest point is taken. Two consequences matter for reading a decimal back:
it has few digits (`shortest_binary32`), and where it lies close to an end of the basin its grid is
coarser than half a place (`lt_of_near_upperEnd`, `lt_of_near_lowerEnd`). -/

namespace Relief.Decimal

open Float.Model (Format UnpackedFloat)
open Binary

variable {F : Format} {m : ℕ} {e k : ℤ}

/-! ## Ends as rational numbers -/

theorem denominator_pos (k : ℤ) : 0 < denominator k := Nat.pow_pos (by decide)

theorem numerator_pos (k : ℤ) : 0 < numerator k := Nat.pow_pos (by decide)

theorem ten_zpow_mul_denominator (k : ℤ) : (10 : ℚ) ^ k * denominator k = numerator k := by
  simp only [numerator, denominator, Nat.pow_eq]
  push_cast
  rw [← zpow_natCast, ← zpow_natCast, ← zpow_add₀ (by norm_num)]
  congr 1
  omega

theorem two_zpow_mul (e : ℤ) :
    (2 : ℚ) ^ (e - 2) * (2 ^ (2 - e).toNat : ℕ) = (2 ^ (e - 2).toNat : ℕ) := by
  push_cast
  rw [← zpow_natCast, ← zpow_natCast, ← zpow_add₀ two_ne_zero]
  congr 1
  omega

theorem unit_pos (F : Format) (m : ℕ) (e : ℤ) : 0 < (Basin.ofFinite F m e).unit :=
  Nat.two_pow_pos _

theorem low_eq (F : Format) (hm : 0 < m) (e : ℤ) :
    ((Basin.ofFinite F m e).low : ℚ) = lowerEnd F m e * (Basin.ofFinite F m e).unit := by
  have hscale := two_zpow_mul e
  simp only [Basin.ofFinite, Nat.pow_eq, lowerEnd]
  rw [mul_assoc, hscale, Nat.cast_mul]
  congr 1
  split <;> rw [Nat.cast_sub (by omega)] <;> push_cast <;> rfl

theorem value_eq (F : Format) (m : ℕ) (e : ℤ) :
    ((Basin.ofFinite F m e).value : ℚ) = m * 2 ^ e * (Basin.ofFinite F m e).unit := by
  have hscale := two_zpow_mul e
  simp only [Basin.ofFinite, Nat.pow_eq]
  calc ((4 * m * 2 ^ (e - 2).toNat : ℕ) : ℚ)
      = 4 * m * (2 ^ (e - 2) * (2 ^ (2 - e).toNat : ℕ)) := by
        rw [hscale]
        push_cast
        rfl
    _ = m * (4 * 2 ^ (e - 2)) * (2 ^ (2 - e).toNat : ℕ) := by ring
    _ = m * 2 ^ e * (2 ^ (2 - e).toNat : ℕ) := by rw [four_mul_zpow]

theorem high_eq (F : Format) (m : ℕ) (e : ℤ) :
    ((Basin.ofFinite F m e).high : ℚ) = upperEnd m e * (Basin.ofFinite F m e).unit := by
  have hscale := two_zpow_mul e
  simp only [Basin.ofFinite, Nat.pow_eq, upperEnd]
  rw [mul_assoc, hscale, Nat.cast_mul]
  push_cast
  rfl

section

variable {a unit d : ℕ} {x : ℚ}

/-- Comparisons with a grid point are made in whole numbers. -/
theorem scaled_point (hunit : 0 < unit) (ha : (a : ℚ) = x * unit) (d : ℕ) (k : ℤ) :
    ∃ c : ℚ, 0 < c ∧ ((a * denominator k : ℕ) : ℚ) = x * c ∧
      ((d * numerator k * unit : ℕ) : ℚ) = d * 10 ^ k * c := by
  have hden : (0 : ℚ) < denominator k := by exact_mod_cast denominator_pos k
  have hunit' : (0 : ℚ) < unit := by exact_mod_cast hunit
  refine ⟨denominator k * unit, by positivity, ?_, ?_⟩
  · push_cast
    rw [ha]
    ring
  · push_cast
    rw [← ten_zpow_mul_denominator]
    ring

theorem le_point_iff (hunit : 0 < unit) (ha : (a : ℚ) = x * unit) :
    a * denominator k ≤ d * numerator k * unit ↔ x ≤ d * 10 ^ k := by
  obtain ⟨c, hc, h₁, h₂⟩ := scaled_point hunit ha d k
  rw [← Nat.cast_le (α := ℚ), h₁, h₂, mul_le_mul_iff_left₀ hc]

theorem point_le_iff (hunit : 0 < unit) (ha : (a : ℚ) = x * unit) :
    d * numerator k * unit ≤ a * denominator k ↔ d * 10 ^ k ≤ x := by
  obtain ⟨c, hc, h₁, h₂⟩ := scaled_point hunit ha d k
  rw [← Nat.cast_le (α := ℚ), h₁, h₂, mul_le_mul_iff_left₀ hc]

end

/-- Membership in a basin is rounding to its number. -/
theorem holds_iff (hc : Canonical F m e) (d : ℕ) (k : ℤ) :
    (Basin.ofFinite F m e).holds d k = true ↔ RoundsTo F (d * 10 ^ k) m e := by
  have hunit := unit_pos F m e
  have hlow := le_point_iff (d := d) (k := k) hunit (low_eq F hc.pos e)
  have hhigh := point_le_iff (d := d) (k := k) hunit (high_eq F m e)
  have hlow' := point_le_iff (d := d) (k := k) hunit (low_eq F hc.pos e)
  have hhigh' := le_point_iff (d := d) (k := k) hunit (high_eq F m e)
  have hclosed : (Basin.ofFinite F m e).closed = decide (m % 2 = 0) := rfl
  rw [Basin.holds, hclosed]
  by_cases heven : m % 2 = 0
  · rw [if_pos (decide_eq_true heven)]
    simp only [Bool.and_eq_true, decide_eq_true_eq, hlow, hhigh]
    exact ⟨fun h => ⟨hc, h.1, h.2, fun _ => heven⟩, fun h => ⟨h.lower, h.upper⟩⟩
  · rw [if_neg (by simpa using heven)]
    simp only [Bool.and_eq_true, decide_eq_true_eq, ← not_le, hlow', hhigh']
    constructor
    · exact fun h => hc.roundsTo_of_lt (not_le.1 h.1) (not_le.1 h.2)
    · refine fun h => ⟨fun hle => heven (h.even (.inl ?_)), fun hle => heven (h.even (.inr ?_))⟩
      · exact le_antisymm hle h.lower
      · exact le_antisymm h.upper hle

/-! ## One grid -/

/-- The grid point below a number. -/
def gridBelow (F : Format) (m : ℕ) (e k : ℤ) : ℕ :=
  let b := Basin.ofFinite F m e
  b.value * denominator k / (numerator k * b.unit)

theorem gridBelow_le (F : Format) (m : ℕ) (e k : ℤ) :
    (gridBelow F m e k : ℚ) * 10 ^ k ≤ m * 2 ^ e := by
  rw [← point_le_iff (unit_pos F m e) (value_eq F m e), mul_assoc]
  exact Nat.div_mul_le_self _ _

theorem lt_gridBelow (F : Format) (m : ℕ) (e k : ℤ) :
    (m * 2 ^ e : ℚ) < (gridBelow F m e k + 1 : ℕ) * 10 ^ k := by
  rw [← not_le, ← point_le_iff (unit_pos F m e) (value_eq F m e), not_le, mul_assoc]
  exact (Nat.div_lt_iff_lt_mul (Nat.mul_pos (numerator_pos k) (unit_pos F m e))).1
    (Nat.lt_succ_self _)

/-- What the search finds on a grid: one of the two neighbours of the number that rounds to it. Of
    two it is the nearer one. -/
inductive Finds (F : Format) (m : ℕ) (e k : ℤ) : Option ℕ → Prop
  | nothing (hbelow : ¬ RoundsTo F (gridBelow F m e k * 10 ^ k) m e)
      (habove : ¬ RoundsTo F ((gridBelow F m e k + 1 : ℕ) * 10 ^ k) m e) : Finds F m e k none
  | below (hbelow : RoundsTo F (gridBelow F m e k * 10 ^ k) m e)
      (habove : RoundsTo F ((gridBelow F m e k + 1 : ℕ) * 10 ^ k) m e →
        2 * (m * 2 ^ e : ℚ) ≤ (2 * gridBelow F m e k + 1 : ℕ) * 10 ^ k) :
      Finds F m e k (some (gridBelow F m e k))
  | above (habove : RoundsTo F ((gridBelow F m e k + 1 : ℕ) * 10 ^ k) m e)
      (hbelow : RoundsTo F (gridBelow F m e k * 10 ^ k) m e →
        (2 * gridBelow F m e k + 1 : ℕ) * 10 ^ k ≤ 2 * (m * 2 ^ e : ℚ)) :
      Finds F m e k (some (gridBelow F m e k + 1))

theorem nearest?_finds (hc : Canonical F m e) (k : ℤ) :
    Finds F m e k ((Basin.ofFinite F m e).nearest? k) := by
  have hbelow := holds_iff hc (gridBelow F m e k) k
  have habove := holds_iff hc (gridBelow F m e k + 1) k
  have hsearch : (Basin.ofFinite F m e).value * denominator k
      / (numerator k * (Basin.ofFinite F m e).unit) = gridBelow F m e k := rfl
  have htwice : ((2 * (Basin.ofFinite F m e).value : ℕ) : ℚ)
      = 2 * (m * 2 ^ e) * (Basin.ofFinite F m e).unit := by
    rw [mul_assoc, ← value_eq]
    push_cast
    rfl
  have hmiddle := point_le_iff (d := 2 * gridBelow F m e k + 1) (k := k) (unit_pos F m e) htwice
  have hmiddle' := le_point_iff (d := 2 * gridBelow F m e k + 1) (k := k) (unit_pos F m e) htwice
  rw [mul_assoc, mul_assoc] at hmiddle hmiddle'
  rw [Basin.nearest?]
  simp only [hsearch]
  split
  · next h₀ h₁ =>
    rw [hbelow] at h₀
    rw [habove] at h₁
    split
    · next h =>
      simp only [Bool.or_eq_true, Bool.and_eq_true, decide_eq_true_eq, beq_iff_eq] at h
      exact .below h₀ fun _ => hmiddle'.1 (h.elim Nat.le_of_lt fun h => h.1.le)
    · next h =>
      simp only [Bool.or_eq_true, Bool.and_eq_true, decide_eq_true_eq, beq_iff_eq, not_or] at h
      exact .above h₁ fun _ => hmiddle.1 (Nat.le_of_not_lt h.1)
  · next h₀ h₁ =>
    rw [hbelow] at h₀
    refine .below h₀ fun h => ?_
    rw [habove.2 h] at h₁
    cases h₁
  · next h₀ h₁ =>
    rw [habove] at h₁
    refine .above h₁ fun h => ?_
    rw [hbelow.2 h] at h₀
    cases h₀
  · next h₀ h₁ =>
    refine .nothing (fun h => ?_) fun h => ?_
    · rw [hbelow.2 h] at h₀
      cases h₀
    · rw [habove.2 h] at h₁
      cases h₁

/-- A grid point below the number that does not round to it lies below everything that does. -/
theorem gridBelow_le_lowerEnd (hc : Canonical F m e)
    (h : ¬ RoundsTo F (gridBelow F m e k * 10 ^ k) m e) :
    gridBelow F m e k * 10 ^ k ≤ lowerEnd F m e :=
  not_lt.1 fun hl => h <| hc.roundsTo_of_lt hl <|
    (gridBelow_le F m e k).trans_lt (lt_upperEnd m e)

theorem upperEnd_le_gridBelow (hc : Canonical F m e)
    (h : ¬ RoundsTo F ((gridBelow F m e k + 1 : ℕ) * 10 ^ k) m e) :
    upperEnd m e ≤ (gridBelow F m e k + 1 : ℕ) * 10 ^ k :=
  not_lt.1 fun hu => h <| hc.roundsTo_of_lt
    ((lowerEnd_lt F m e).trans (lt_gridBelow F m e k)) hu

/-- A grid without a point that rounds to the number is at least as wide as what does. -/
theorem width_le_of_nearest?_eq_none (hc : Canonical F m e)
    (h : (Basin.ofFinite F m e).nearest? k = none) : upperEnd m e - lowerEnd F m e ≤ 10 ^ k := by
  have hfinds := nearest?_finds hc k
  rw [h] at hfinds
  obtain ⟨hbelow, habove⟩ := hfinds
  have hl := gridBelow_le_lowerEnd hc hbelow
  have hu := upperEnd_le_gridBelow hc habove
  push_cast at hu
  linarith

theorem roundsTo_of_nearest? {d : ℕ} (hc : Canonical F m e)
    (h : (Basin.ofFinite F m e).nearest? k = some d) : RoundsTo F (d * 10 ^ k) m e := by
  have hfinds := nearest?_finds hc k
  rw [h] at hfinds
  cases hfinds with
  | below hbelow => exact hbelow
  | above habove => exact habove

/-- A decimal close to the upper end was taken because its grid has no nearer point: the grid is
    coarser than the space up to the end. -/
theorem lt_of_near_upperEnd {d : ℕ} (hc : Canonical F m e)
    (h : (Basin.ofFinite F m e).nearest? k = some d)
    (hnear : 2 * (upperEnd m e - d * 10 ^ k) < upperEnd m e - m * 2 ^ e)
    (hgap : upperEnd m e - m * 2 ^ e ≤ 2 * (m * 2 ^ e - lowerEnd F m e)) :
    upperEnd m e - m * 2 ^ e < 10 ^ k := by
  have hfinds := nearest?_finds hc k
  have hle := gridBelow_le F m e k
  rw [h] at hfinds
  cases hfinds with
  | below => linarith [lt_upperEnd m e]
  | above habove hbelow =>
    push_cast at hnear habove hbelow
    by_cases hb : RoundsTo F (gridBelow F m e k * 10 ^ k) m e
    · linarith [hbelow hb]
    · linarith [gridBelow_le_lowerEnd hc hb]

/-- The same at the lower end. -/
theorem lt_of_near_lowerEnd {d : ℕ} (hc : Canonical F m e)
    (h : (Basin.ofFinite F m e).nearest? k = some d)
    (hnear : 2 * (d * 10 ^ k - lowerEnd F m e) < m * 2 ^ e - lowerEnd F m e)
    (hgap : m * 2 ^ e - lowerEnd F m e ≤ upperEnd m e - m * 2 ^ e) :
    m * 2 ^ e - lowerEnd F m e < 10 ^ k := by
  have hfinds := nearest?_finds hc k
  have hlt := lt_gridBelow F m e k
  rw [h] at hfinds
  cases hfinds with
  | above => linarith [lowerEnd_lt F m e]
  | below hbelow habove =>
    push_cast at habove hlt
    by_cases ha : RoundsTo F ((gridBelow F m e k + 1 : ℕ) * 10 ^ k) m e
    · push_cast at ha
      linarith [habove ha]
    · have := upperEnd_le_gridBelow hc ha
      push_cast at this
      linarith

/-! ## The search -/

/-- The search stops at the first grid with a point. -/
theorem shortest?_eq_some {b : Basin} {n : ℕ} {top : ℤ} {d : Decimal}
    (h : b.shortest? n top = some d) :
    top - n < d.exponent ∧ d.exponent ≤ top ∧ b.nearest? d.exponent = some d.digits ∧
      (d.exponent < top → b.nearest? (d.exponent + 1) = none) := by
  induction n generalizing top with
  | zero => cases h
  | succ n ih =>
    rw [Basin.shortest?] at h
    split at h
    · next digits hfound =>
      cases h
      exact ⟨by push_cast; omega, le_rfl, hfound, fun hlt => absurd hlt (lt_irrefl _)⟩
    · next hnone =>
      obtain ⟨hlow, hhigh, hfound, hcoarser⟩ := ih h
      refine ⟨by push_cast; omega, by omega, hfound, fun _ => ?_⟩
      obtain hlt | heq := hhigh.lt_or_eq
      · exact hcoarser hlt
      · rw [heq, sub_add_cancel]
        exact hnone

/-- A search over a grid with a point finds one. -/
theorem exists_shortest?_eq_some {b : Basin} {n : ℕ} {top k : ℤ} (hlow : top - n < k)
    (hhigh : k ≤ top) (h : b.nearest? k ≠ none) : ∃ d, b.shortest? n top = some d := by
  induction n generalizing top with
  | zero => omega
  | succ n ih =>
    rw [Basin.shortest?]
    split
    · exact ⟨_, rfl⟩
    · next hnone =>
      have hne : k ≠ top := fun heq => h (heq ▸ hnone)
      exact ih (by push_cast at hlow; omega) (by omega)

/-! ## Single precision -/

/-- What rounds to a number spans at least three quarters of a place, -/
theorem le_width (F : Format) (m : ℕ) (e : ℤ) :
    3 * 2 ^ (e - 2) ≤ upperEnd m e - lowerEnd F m e := by
  rw [upperEnd, lowerEnd, ← sub_mul]
  gcongr
  split <;> linarith

/-- and at least the last place of the format. -/
theorem two_pow_minExponent_le (hc : Canonical F m e) :
    2 ^ F.minExponent ≤ upperEnd m e - lowerEnd F m e := by
  obtain heq | hlt := hc.least.eq_or_lt
  · rw [heq, ← four_mul_zpow e, upperEnd, lowerEnd, if_neg (by simp [heq]), ← sub_mul]
    gcongr
    linarith
  · calc (2 : ℚ) ^ F.minExponent ≤ 2 ^ (e - 1) := zpow_le_zpow_right₀ one_le_two (by omega)
      _ = 2 * 2 ^ (e - 2) := by
          rw [← zpow_one_add₀ two_ne_zero]
          congr 1
          omega
      _ ≤ 3 * 2 ^ (e - 2) := by gcongr; norm_num
      _ ≤ _ := le_width F m e

theorem digits_pos_of_roundsTo {d : ℕ} (h : RoundsTo F (d * 10 ^ k) m e) : 0 < d := by
  have hpos := h.value_pos
  rw [Nat.pos_iff_ne_zero]
  rintro rfl
  simp at hpos

/-- A decimal that rounds to a number of single precision has few digits, unless its grid is much
    finer than a place of the number. -/
theorem digits_lt_of_roundsTo {d : ℕ} (h : RoundsTo .binary32 (d * 10 ^ k) m e)
    (hplace : (2 : ℚ) ^ (e - 2) ≤ 10 * 10 ^ k) : d < 2 ^ 53 := by
  have hmant : ((m + 1 : ℕ) : ℚ) ≤ 2 ^ 24 := by exact_mod_cast h.lt
  have hten : (0 : ℚ) < 10 ^ k := by positivity
  have hdigits : (d : ℚ) ≤ 2 ^ 26 * 10 := by
    refine le_of_mul_le_mul_right ?_ hten
    calc (d : ℚ) * 10 ^ k ≤ upperEnd m e := h.upper
      _ ≤ 2 ^ 26 * 2 ^ (e - 2) := by
          rw [upperEnd]
          gcongr
          push_cast at hmant
          linarith
      _ ≤ 2 ^ 26 * (10 * 10 ^ k) := by gcongr
      _ = 2 ^ 26 * 10 * 10 ^ k := by ring
  have : d ≤ 2 ^ 26 * 10 := by exact_mod_cast hdigits
  omega

/-- What the search gives for a number of single precision: a point of a grid fine enough to have
    one, with few digits. -/
theorem shortest_binary32 (hc : Canonical .binary32 m e) (he : e ≤ 104) :
    ∃ d, shortest .binary32 m e = d ∧ -45 ≤ d.exponent ∧ d.exponent ≤ 39 ∧ d.digits < 2 ^ 53 ∧
      (Basin.ofFinite .binary32 m e).nearest? d.exponent = some d.digits := by
  have hfine : (Basin.ofFinite .binary32 m e).nearest? (-45) ≠ none := by
    intro h
    have h := (two_pow_minExponent_le hc).trans (width_le_of_nearest?_eq_none hc h)
    have hmin : Format.minExponent .binary32 = -149 := by decide
    rw [hmin] at h
    norm_num at h
  obtain ⟨d, hd⟩ : ∃ d, Basin.shortest? _ 85 39 = some d :=
    exists_shortest?_eq_some (by norm_num) (by norm_num) hfine
  obtain ⟨hlow, hhigh, hfound, hcoarser⟩ := shortest?_eq_some hd
  -- the next coarser grid has no point, or there is none
  have hplace : (2 : ℚ) ^ (e - 2) ≤ 10 * 10 ^ d.exponent := by
    obtain hlt | heq := hhigh.lt_or_eq
    · have hwidth := width_le_of_nearest?_eq_none hc (hcoarser hlt)
      rw [zpow_add_one₀ (by norm_num)] at hwidth
      have := le_width .binary32 m e
      have : (0 : ℚ) < 2 ^ (e - 2) := by positivity
      linarith
    · calc (2 : ℚ) ^ (e - 2) ≤ 2 ^ (102 : ℤ) := zpow_le_zpow_right₀ one_le_two (by omega)
        _ ≤ 10 * 10 ^ d.exponent := by
            rw [heq]
            norm_num
  refine ⟨d, ?_, ?_, hhigh, ?_, hfound⟩
  · show (Basin.shortest? (Basin.ofFinite .binary32 m e) 85 39).getD ⟨0, 0⟩ = d
    rw [hd]
    rfl
  · push_cast at hlow
    omega
  · exact digits_lt_of_roundsTo (roundsTo_of_nearest? hc hfound) hplace

end Relief.Decimal
