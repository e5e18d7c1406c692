import Relief.Proofs.Rounding

set_option autoImplicit false

/-! # Order: binary numbers on a line

Numbers are compared by sign, exponent and mantissa. Here every number but a NaN gets a value on the
rational line such that comparing numbers is comparing values (`compare_eq`). A finite number has its
own value, and an infinity stands where the first power of two would be that has no finite number
(`limit`), so that no value needs a special case: what is infinite is what reaches the limit
(`Binary32.isFinite_iff`). -/

namespace Relief

namespace Binary

open Float.Model (Format UnpackedFloat)
open Float.Model.UnpackedFloat

variable {F : Format}

/-! ## Values -/

/-- Where an infinity stands. -/
def limit (F : Format) : ℚ := 2 ^ (F.mantissaBits + topExponent F : ℤ)

/-- A magnitude with a sign. -/
def signed : Sign → ℚ → ℚ
  | .positive, y => y
  | .negative, y => -y

/-- The value of a number. A NaN has none, and is given zero. -/
def valueOf (F : Format) : UnpackedFloat → ℚ
  | .infinity s => signed s (limit F)
  | .notANumber => 0
  | .zero _ => 0
  | .finite s m e _ => signed s (m * 2 ^ e)

/-- Whether a number is one of a format. -/
def InFormat (F : Format) : UnpackedFloat → Prop
  | .finite _ m e _ => Canonical F m e ∧ e ≤ topExponent F
  | _ => True

/-- What is unpacked is a number of the format. -/
theorem inFormat_unpack (hbias : 0 < F.exponentBias) (b : BitVec F.numBits) :
    InFormat F (unpack F b) := by
  cases h : unpack F b with
  | finite s m e hm => exact canonical_of_unpack hbias h
  | infinity s => trivial
  | notANumber => trivial
  | zero s => trivial

theorem limit_pos (F : Format) : 0 < limit F := by
  unfold limit
  positivity

theorem Canonical.value_pos {m : ℕ} {e : ℤ} (h : Canonical F m e) : 0 < (m * 2 ^ e : ℚ) := by
  have := h.pos
  positivity

/-- A number is below the power of two that its mantissa cannot count. -/
theorem value_lt_of_lt {m : ℕ} (hm : m < 2 ^ F.mantissaBits) (e : ℤ) :
    (m * 2 ^ e : ℚ) < 2 ^ (F.mantissaBits + e : ℤ) := by
  have hlt : (m : ℚ) < (2 ^ F.mantissaBits : ℕ) := by exact_mod_cast hm
  rw [← two_pow_mul_zpow]
  gcongr

theorem Canonical.value_lt {m : ℕ} {e : ℤ} (h : Canonical F m e) :
    (m * 2 ^ e : ℚ) < 2 ^ (F.mantissaBits + e : ℤ) :=
  value_lt_of_lt h.lt e

/-- A full mantissa reaches the power of two of its leading bit. -/
theorem le_value_of_full {m : ℕ} (e : ℤ) (hm : 2 ^ F.mantissaBitsWithoutImplicit ≤ m) :
    (2 : ℚ) ^ (F.mantissaBitsWithoutImplicit + e : ℤ) ≤ m * 2 ^ e := by
  have hle : ((2 ^ F.mantissaBitsWithoutImplicit : ℕ) : ℚ) ≤ m := by exact_mod_cast hm
  rw [← two_pow_mul_zpow]
  gcongr

theorem Canonical.value_lt_limit {m : ℕ} {e : ℤ} (h : Canonical F m e) (he : e ≤ topExponent F) :
    (m * 2 ^ e : ℚ) < limit F :=
  h.value_lt.trans_le (zpow_le_zpow_right₀ one_le_two (by omega))

/-- A number whose exponent does not fit reaches the limit. -/
theorem Canonical.limit_le_value {m : ℕ} {e : ℤ} (h : Canonical F m e) (he : topExponent F < e)
    (htop : F.minExponent ≤ topExponent F) : limit F ≤ m * 2 ^ e := by
  have hbits := mantissaBits_eq F
  refine le_trans (zpow_le_zpow_right₀ one_le_two ?_)
    (le_value_of_full e (h.full.resolve_right (by omega)))
  omega

/-! ## Comparing -/

/-- A greater exponent makes a greater number. -/
theorem Canonical.value_lt_of_lt {m m' : ℕ} {e e' : ℤ} (h : Canonical F m e)
    (h' : Canonical F m' e') (he : e < e') : (m * 2 ^ e : ℚ) < m' * 2 ^ e' := by
  have hbits := mantissaBits_eq F
  have hleast := h.least
  refine h.value_lt.trans_le (le_trans (zpow_le_zpow_right₀ one_le_two ?_)
    (le_value_of_full e' (h'.full.resolve_right (by omega))))
  omega

/-- Magnitudes are compared by their exponents first and then by their mantissas. -/
theorem Canonical.compare_value {m m' : ℕ} {e e' : ℤ} (h : Canonical F m e)
    (h' : Canonical F m' e') :
    compare (m * 2 ^ e : ℚ) (m' * 2 ^ e') = (compare e e').then (compare m m') := by
  obtain he | rfl | he := lt_trichotomy e e'
  · rw [Int.compare_eq_lt.2 he, compare_lt_iff_lt.2 (h.value_lt_of_lt h' he)]
    rfl
  · have hpow : (0 : ℚ) < 2 ^ e := by positivity
    rw [Int.compare_eq_eq.2 rfl]
    show _ = compare m m'
    obtain hm | rfl | hm := Nat.lt_trichotomy m m'
    · rw [Nat.compare_eq_lt.2 hm, compare_lt_iff_lt]
      gcongr
    · rw [Nat.compare_eq_eq.2 rfl, compare_eq_iff_eq]
    · rw [Nat.compare_eq_gt.2 hm, compare_gt_iff_gt]
      gcongr
  · rw [Int.compare_eq_gt.2 he, compare_gt_iff_gt.2 (h'.value_lt_of_lt h he)]
    rfl

/-- Below zero the greater magnitude is the lesser number. -/
theorem compare_neg_neg (a b : ℚ) : compare (-a) (-b) = (compare a b).swap := by
  obtain h | rfl | h := lt_trichotomy a b
  · rw [compare_lt_iff_lt.2 h, compare_gt_iff_gt.2 (neg_lt_neg h)]
    rfl
  · rw [compare_eq_iff_eq.2 rfl, compare_eq_iff_eq.2 rfl]
    rfl
  · rw [compare_gt_iff_gt.2 h, compare_lt_iff_lt.2 (neg_lt_neg h)]
    rfl

/-- A finite number lies between the infinities. -/
theorem valueOf_finite_mem {s : Sign} {m : ℕ} {e : ℤ} {hm : 0 < m}
    (h : InFormat F (.finite s m e hm)) :
    -limit F < valueOf F (.finite s m e hm) ∧ valueOf F (.finite s m e hm) < limit F := by
  have hpos := h.1.value_pos
  have hlt := h.1.value_lt_limit h.2
  cases s <;> simp only [valueOf, signed] <;> constructor <;> linarith

/-- **What is infinite is what reaches the limit.** -/
theorem isFinite_iff {u : UnpackedFloat} (h : InFormat F u) (hu : u ≠ .notANumber) :
    u.isFinite = true ↔ |valueOf F u| < limit F := by
  have hlimit := limit_pos F
  cases u with
  | notANumber => exact absurd rfl hu
  | zero s => exact iff_of_true rfl (by rwa [valueOf, abs_zero])
  | finite s m e hm => exact iff_of_true rfl (abs_lt.2 (valueOf_finite_mem h))
  | infinity s =>
      refine iff_of_false Bool.false_ne_true (not_lt.2 ?_)
      cases s
      · exact le_abs.2 (.inr (neg_neg (limit F)).ge)
      · exact le_abs_self _

theorem abs_valueOf_le {u : UnpackedFloat} (h : InFormat F u) : |valueOf F u| ≤ limit F := by
  have hlimit := limit_pos F
  cases u with
  | notANumber => simpa [valueOf] using hlimit.le
  | zero s => simpa [valueOf] using hlimit.le
  | finite s m e hm => exact (abs_lt.2 (valueOf_finite_mem h)).le
  | infinity s => cases s <;> simp [valueOf, signed, abs_of_pos hlimit]

/-- **Numbers are compared by their values.** -/
theorem compare_eq {u v : UnpackedFloat} (hu : InFormat F u) (hv : InFormat F v)
    (hu' : u ≠ .notANumber) (hv' : v ≠ .notANumber) :
    u.compare v = some (compare (valueOf F u) (valueOf F v)) := by
  have hlimit := limit_pos F
  have hlt {a b : ℚ} (h : a < b) : some Ordering.lt = some (compare a b) :=
    congrArg some (compare_lt_iff_lt.2 h).symm
  have hgt {a b : ℚ} (h : b < a) : some Ordering.gt = some (compare a b) :=
    congrArg some (compare_gt_iff_gt.2 h).symm
  have heq (a : ℚ) : some Ordering.eq = some (compare a a) :=
    congrArg some (compare_eq_iff_eq.2 rfl).symm
  cases u with
  | notANumber => exact absurd rfl hu'
  | zero s =>
      cases v with
      | notANumber => exact absurd rfl hv'
      | zero s' => exact heq 0
      | infinity s' =>
          cases s' with
          | negative => exact hgt (neg_lt_zero.2 hlimit)
          | positive => exact hlt hlimit
      | finite s' m' e' hm' =>
          cases s' with
          | negative => exact hgt (neg_lt_zero.2 hv.1.value_pos)
          | positive => exact hlt hv.1.value_pos
  | infinity s =>
      cases v with
      | notANumber => exact absurd rfl hv'
      | zero s' =>
          cases s with
          | negative => exact hlt (neg_lt_zero.2 hlimit)
          | positive => exact hgt hlimit
      | infinity s' =>
          cases s <;> cases s'
          · exact heq _
          · exact hlt ((neg_lt_zero.2 hlimit).trans hlimit)
          · exact hgt ((neg_lt_zero.2 hlimit).trans hlimit)
          · exact heq _
      | finite s' m' e' hm' =>
          obtain ⟨hlow, hhigh⟩ := valueOf_finite_mem hv
          cases s with
          | negative => exact hlt hlow
          | positive => exact hgt hhigh
  | finite s m e hm =>
      cases v with
      | notANumber => exact absurd rfl hv'
      | zero s' =>
          cases s with
          | negative => exact hlt (neg_lt_zero.2 hu.1.value_pos)
          | positive => exact hgt hu.1.value_pos
      | infinity s' =>
          obtain ⟨hlow, hhigh⟩ := valueOf_finite_mem hu
          cases s' with
          | negative => exact hgt hlow
          | positive => exact hlt hhigh
      | finite s' m' e' hm' =>
          have hmagnitudes := hu.1.compare_value hv.1
          cases s <;> cases s'
          · exact congrArg some ((compare_neg_neg _ _).trans (congrArg _ hmagnitudes)).symm
          · exact hlt ((neg_lt_zero.2 hu.1.value_pos).trans hv.1.value_pos)
          · exact hgt ((neg_lt_zero.2 hv.1.value_pos).trans hu.1.value_pos)
          · exact congrArg some hmagnitudes.symm

end Binary

namespace Binary32

open Float.Model (Format UnpackedFloat)
open Float.Model.UnpackedFloat
open Binary (inFormat_unpack compare_eq limit valueOf abs_valueOf_le)

variable {x y : Float32}

/-! ## Single precision -/

/-- The value of a number, zero for a NaN. -/
def value (x : Float32) : ℚ := valueOf .binary32 x.toModel.unpack

theorem inFormat (x : Float32) : Binary.InFormat .binary32 x.toModel.unpack :=
  inFormat_unpack (by decide) _

theorem ne_notANumber (hx : x.isNaN = false) : x.toModel.unpack ≠ .notANumber := by
  intro h
  rw [isNaN_iff.2 h] at hx
  cases hx

theorem compare_of_isNaN (hx : x.isNaN = false) (hy : y.isNaN = false) :
    x.toModel.unpack.compare y.toModel.unpack = some (compare (value x) (value y)) :=
  compare_eq (inFormat x) (inFormat y) (ne_notANumber hx) (ne_notANumber hy)

/-- What is compared with a NaN has no answer. -/
theorem isNaN_of_compare {o : Ordering} (h : x.toModel.unpack.compare y.toModel.unpack = some o) :
    x.isNaN = false ∧ y.isNaN = false := by
  constructor <;> rw [Bool.eq_false_iff] <;> intro hnan <;> rw [isNaN_iff.1 hnan] at h
  · cases h
  · cases hx : x.toModel.unpack <;> rw [hx] at h <;> cases h

/-- **One number is at most another** when neither is a NaN and their values are so. -/
theorem le_iff : x ≤ y ↔ (x.isNaN = false ∧ y.isNaN = false) ∧ value x ≤ value y := by
  have hle : x ≤ y ↔ (x.toModel.unpack.compare y.toModel.unpack).any (·.isLE) = true :=
    decide_eq_true_iff
  rw [hle]
  constructor
  · intro h
    cases hc : x.toModel.unpack.compare y.toModel.unpack with
    | none =>
        rw [hc] at h
        cases h
    | some o =>
        obtain ⟨hx, hy⟩ := isNaN_of_compare hc
        rw [compare_of_isNaN hx hy] at h
        exact ⟨⟨hx, hy⟩, compare_le_iff_le.1 (Ordering.ne_gt_iff_isLE.2 h)⟩
  · rintro ⟨⟨hx, hy⟩, h⟩
    rw [compare_of_isNaN hx hy]
    exact Ordering.ne_gt_iff_isLE.1 (compare_le_iff_le.2 h)

/-- One number is below another when neither is a NaN and their values are so. -/
theorem lt_iff_value : x < y ↔ (x.isNaN = false ∧ y.isNaN = false) ∧ value x < value y := by
  have hlt : x < y ↔ x.toModel.unpack.compare y.toModel.unpack = some .lt := by
    rw [lt_iff]
    exact beq_iff_eq
  rw [hlt]
  constructor
  · intro h
    obtain ⟨hx, hy⟩ := isNaN_of_compare h
    rw [compare_of_isNaN hx hy, Option.some.injEq] at h
    exact ⟨⟨hx, hy⟩, compare_lt_iff_lt.1 h⟩
  · rintro ⟨⟨hx, hy⟩, h⟩
    rw [compare_of_isNaN hx hy, compare_lt_iff_lt.2 h]

/-- A number is infinite or finite, unless it is a NaN. -/
theorem infinity_or_isFinite (hx : x.isNaN = false) :
    (∃ s, x.toModel.unpack = .infinity s) ∨ x.isFinite = true := by
  have hne := ne_notANumber hx
  show _ ∨ x.toModel.unpack.isFinite = true
  cases h : x.toModel.unpack with
  | notANumber => exact absurd h hne
  | infinity s => exact .inl ⟨s, rfl⟩
  | zero s => exact .inr rfl
  | finite s m e hm => exact .inr rfl

theorem isFinite_iff (hx : x.isNaN = false) : x.isFinite = true ↔ |value x| < limit .binary32 :=
  Binary.isFinite_iff (inFormat x) (ne_notANumber hx)

theorem abs_value_le (x : Float32) : |value x| ≤ limit .binary32 :=
  abs_valueOf_le (inFormat x)

theorem value_of_infinity {s : Sign} (h : x.toModel.unpack = .infinity s) :
    x.isNaN = false ∧ value x = Binary.signed s (limit .binary32) := by
  refine ⟨?_, by rw [value, h]; rfl⟩
  rw [Bool.eq_false_iff]
  intro hnan
  rw [isNaN_iff.1 hnan] at h
  cases h

end Binary32

end Relief
