import Relief.Proofs.Nearest
import Relief.HeightRange

set_option autoImplicit false

/-! # Quantization: heights as sixteen-bit samples

A height is moved to the lower bound, divided by the extent of the range, scaled and truncated. Every
one of these steps is rounded and none of them changes the order of two heights, so that a higher
height never has a lower sample (`HeightRange.quantize_mono`).

The ends of the range are the ends of the sixteen bits as long as the extent is finite, however close
the bounds are. A range is valid when its bounds are in order, and that does not keep the extent from
overflowing: bounds that are further apart than the greatest finite number have an infinite extent,
and by an infinite extent every height is divided to zero or to a NaN. Such a range has the sample 0
for all heights, its upper bound included (`HeightRange.quantize_ends`). -/

namespace Relief

namespace Binary

open Float.Model (Format UnpackedFloat)
open Float.Model.UnpackedFloat

variable {F : Format} {u v : UnpackedFloat}

/-! ## Results that are not finite -/

theorem isFinite_of_pack (h : (unpack F (pack F u)).isFinite = true) : u.isFinite = true := by
  cases u with
  | infinity s =>
      rw [pack, unpack_packedInfinity] at h
      cases h
  | notANumber =>
      rw [pack, unpack_packedNaN] at h
      cases h
  | zero | finite => rfl

/-- A difference is finite only between finite numbers. -/
theorem isFinite_of_sub (h : (UnpackedFloat.sub F u v).isFinite = true) :
    u.isFinite = true ∧ v.isFinite = true := by
  cases u with
  | notANumber => cases h
  | infinity s =>
      cases v with
      | infinity s' => cases s <;> cases s' <;> cases h
      | notANumber | zero | finite => cases h
  | zero | finite =>
      refine ⟨rfl, ?_⟩
      cases v with
      | notANumber | infinity => cases h
      | zero | finite => rfl

/-- What is divided by an infinity or by a NaN is a zero or a NaN. -/
theorem div_of_not_isFinite (u : UnpackedFloat) (hv : v.isFinite = false) :
    UnpackedFloat.div F u v = .notANumber ∨ ∃ s, UnpackedFloat.div F u v = .zero s := by
  cases v with
  | zero | finite => cases hv
  | notANumber => cases u <;> exact .inl rfl
  | infinity s' =>
      cases u with
      | notANumber | infinity => exact .inl rfl
      | zero | finite => exact .inr ⟨_, rfl⟩

end Binary

namespace Binary32

open Float.Model (Format UnpackedFloat)
open Float.Model.UnpackedFloat
open Binary

variable {x y : Float32}

/-! ## Named numbers -/

theorem value_zero : value zero = 0 := rfl

theorem value_one : value one = 1 := by
  show ((2 ^ 23 : ℕ) : ℚ) * 2 ^ (-23 : ℤ) = 1
  norm_num

theorem value_wordTop : value wordTop = 65535 := by
  show ((65535 * 2 ^ 8 : ℕ) : ℚ) * 2 ^ (-8 : ℤ) = 65535
  norm_num

theorem Is.isFinite (h : Is x (value y)) (hy : y.isFinite = true) : x.isFinite = true := by
  rw [isFinite_iff h.isNaN, h.value_eq hy]
  exact (isFinite_iff (isNaN_of_isFinite hy)).1 hy

/-- Numbers of one value are truncated alike. -/
theorem toWord_eq (hx : x.isNaN = false) (hy : y.isNaN = false) (h : value x = value y) :
    toWord x = toWord y := by
  rw [← UInt16.toNat_inj, toNat_toWord hx, toNat_toWord hy, h]

/-- Scaling is exact for a number that has its product. -/
theorem toWord_mul_wordTop {c d : Float32} (hx : Is x (value c)) (hc : c.isFinite = true)
    (hd : d.isFinite = true) (h : value c * 65535 = value d) :
    toWord (x * wordTop) = toWord d := by
  have hproduct : Is (x * wordTop) (value x * value wordTop) := is_mul (hx.isFinite hc) rfl
  rw [hx.value_eq hc, value_wordTop, h] at hproduct
  exact toWord_eq hproduct.isNaN (isNaN_of_isFinite hd) (hproduct.value_eq hd)

theorem toWord_of_isNaN (hx : x.isNaN = true) : toWord x = 0 := by
  show x.toModel.unpack.toUInt16 = 0
  rw [isNaN_iff.1 hx]
  rfl

theorem isFinite_of_sub (h : (x - y).isFinite = true) : x.isFinite = true ∧ y.isFinite = true := by
  have hsub : (UnpackedFloat.sub .binary32 x.toModel.unpack y.toModel.unpack).isFinite = true :=
    isFinite_of_pack h
  exact Binary.isFinite_of_sub hsub

/-- What is divided by something that is not finite ends as the sample 0. -/
theorem toWord_div_mul (x : Float32) (hy : y.isFinite = false) : toWord (x / y * wordTop) = 0 := by
  have hquotient : (x / y).toModel.unpack
      = unpack .binary32 (pack .binary32 (div .binary32 x.toModel.unpack y.toModel.unpack)) := rfl
  obtain hnan | ⟨s, hzero⟩ := div_of_not_isFinite (F := .binary32) x.toModel.unpack hy
  · refine toWord_of_isNaN (isNaN_mul (isNaN_iff.2 ?_) _)
    rw [hquotient, hnan, pack, unpack_packedNaN]
  · rw [hzero] at hquotient
    have his : Is (x / y) (value zero) := is_of_answers (answers_zero .binary32 s) hquotient
    rw [toWord_mul_wordTop his rfl (d := zero) rfl (by rw [value_zero, zero_mul])]
    rfl

end Binary32

namespace HeightRange

open Binary Binary32

variable {r : HeightRange} {h h' : Float32}

/-- Whether the extent of a range is a finite number. -/
def Fits (r : HeightRange) : Prop :=
  r.min.isFinite = true ∧ r.max.isFinite = true ∧ value r.max - value r.min < 2 ^ 128 - 2 ^ 103

theorem ceiling_binary32 : ceiling .binary32 = 2 ^ 128 - 2 ^ 103 := by
  show (2 ^ 24 - 1 / 2 : ℚ) * 2 ^ (104 : ℤ) = 2 ^ 128 - 2 ^ 103
  norm_num

theorem isFinite_extent_iff (hr : r.isValid = true) : (r.max - r.min).isFinite = true ↔ r.Fits := by
  have hlt : r.min < r.max := of_decide_eq_true hr
  have hpos := sub_pos.2 (lt_iff_value.1 hlt).2
  have hiff (hmax : r.max.isFinite = true) (hmin : r.min.isFinite = true) :
      (r.max - r.min).isFinite = true ↔ value r.max - value r.min < 2 ^ 128 - 2 ^ 103 := by
    have hextent := is_sub hmax hmin
    have hmagnitude := hextent.isRounding.pos hpos
    rw [isFinite_iff hextent.isNaN, abs_of_nonneg hmagnitude.nonneg,
      hmagnitude.lt_limit_iff (by decide), ceiling_binary32]
  constructor
  · intro hfinite
    obtain ⟨hmax, hmin⟩ := isFinite_of_sub hfinite
    exact ⟨hmin, hmax, (hiff hmax hmin).1 hfinite⟩
  · rintro ⟨hmin, hmax, hextent⟩
    exact (hiff hmax hmin).2 hextent

/-! ## The ends -/

theorem quantize_of_not_fits (hr : r.isValid = true) (hfits : ¬ r.Fits) (h : Float32) :
    r.quantize h = 0 := by
  rw [← isFinite_extent_iff hr, Bool.not_eq_true] at hfits
  exact toWord_div_mul _ hfits

theorem value_extent_pos (hr : r.isValid = true) (hfits : r.Fits) : 0 < value (r.max - r.min) :=
  value_sub_pos (of_decide_eq_true hr) hfits.1 hfits.2.1

theorem quantize_min (hr : r.isValid = true) (hfits : r.Fits) : r.quantize r.min = 0 := by
  have hextent := (isFinite_extent_iff hr).2 hfits
  have hzero : Is (r.min - r.min) (value zero) := by
    have := is_sub hfits.1 hfits.1
    rwa [sub_self] at this
  have hplace : Is (r.normalize r.min) (value zero) := by
    have := is_div (hzero.isFinite rfl) hextent (value_extent_pos hr hfits).ne'
    rwa [hzero.value_eq rfl, value_zero, zero_div] at this
  exact toWord_mul_wordTop hplace rfl (d := zero) rfl (by rw [value_zero, zero_mul])

theorem quantize_max (hr : r.isValid = true) (hfits : r.Fits) : r.quantize r.max = 65535 := by
  have hextent := (isFinite_extent_iff hr).2 hfits
  have hpos := value_extent_pos hr hfits
  have hplace : Is (r.normalize r.max) (value one) := by
    have := is_div hextent hextent hpos.ne'
    rwa [div_self hpos.ne', ← value_one] at this
  exact toWord_mul_wordTop hplace rfl (d := wordTop) rfl (by rw [value_one, value_wordTop, one_mul])

/-! ## Order -/

/-- Subtraction, division, scaling and truncation keep the order one after another. -/
theorem quantize_le_of_fits (hr : r.isValid = true) (hfits : r.Fits) (hle : h ≤ h') :
    r.quantize h ≤ r.quantize h' := by
  have hextent := (isFinite_extent_iff hr).2 hfits
  have htop : 0 < value wordTop := by
    rw [value_wordTop]
    norm_num
  have hmoved : h - r.min ≤ h' - r.min := Binary32.sub_le_sub_right hle hfits.1
  have hplaced : r.normalize h ≤ r.normalize h' :=
    Binary32.div_le_div_right hmoved hextent (value_extent_pos hr hfits)
  exact toWord_le_toWord (Binary32.mul_le_mul_right hplaced rfl htop)

/-- **A higher height never has a lower sample**, in a valid range of any extent. -/
theorem quantize_mono (r : HeightRange) (hr : r.isValid = true) (h h' : Float32) (hle : h ≤ h') :
    r.quantize h ≤ r.quantize h' := by
  by_cases hfits : r.Fits
  · exact quantize_le_of_fits hr hfits hle
  · rw [quantize_of_not_fits hr hfits, quantize_of_not_fits hr hfits]
    exact UInt16.le_refl 0

/-- Infinite heights are the ends of the order. -/
theorem quantize_mono_unit : unit.isValid = true ∧ -Float32.inf ≤ half ∧ half ≤ Float32.inf ∧
    unit.quantize (-Float32.inf) ≤ unit.quantize half ∧
      unit.quantize half ≤ unit.quantize Float32.inf :=
  ⟨by decide, by decide, by decide, quantize_mono unit (by decide) _ _ (by decide),
    quantize_mono unit (by decide) _ _ (by decide)⟩

/-- **The ends of a valid range are the ends of the sixteen bits** as long as its extent is a finite
    number: the sample is 0 up to the lower bound and 65535 from the upper bound on. Over an infinite
    extent it is 0 everywhere. -/
theorem quantize_ends (r : HeightRange) (hr : r.isValid = true) :
    r.quantize r.min = 0 ∧ (∀ h, h ≤ r.min → r.quantize h = 0) ∧
      (r.Fits → r.quantize r.max = 65535 ∧ ∀ h, r.max ≤ h → r.quantize h = 65535) ∧
      (¬ r.Fits → ∀ h, r.quantize h = 0) := by
  by_cases hfits : r.Fits
  · have hmin := quantize_min hr hfits
    have hmax := quantize_max hr hfits
    refine ⟨hmin, fun h hle => ?_, fun _ => ⟨hmax, fun h hle => ?_⟩, fun hnot => absurd hfits hnot⟩
    · have hbelow := quantize_le_of_fits hr hfits hle
      rw [hmin] at hbelow
      exact UInt16.le_zero_iff.1 hbelow
    · have habove := quantize_le_of_fits hr hfits hle
      rw [hmax, UInt16.le_iff_toNat_le] at habove
      exact UInt16.toNat_inj.1 (le_antisymm (Nat.le_of_lt_succ (r.quantize h).toNat_lt) habove)
  · have hall := quantize_of_not_fits hr hfits
    exact ⟨hall _, fun h _ => hall h, fun hyes => absurd hyes hfits, fun _ => hall⟩

theorem quantize_ends_unit : unit.isValid = true ∧ unit.Fits ∧
    unit.quantize zero = 0 ∧ ∀ h, one ≤ h → unit.quantize h = 65535 := by
  have hfits : unit.Fits := by
    refine ⟨rfl, rfl, ?_⟩
    show value one - value zero < 2 ^ 128 - 2 ^ 103
    rw [value_one, value_zero]
    norm_num
  obtain ⟨hmin, -, hmax, -⟩ := quantize_ends unit (by decide)
  exact ⟨by decide, hfits, hmin, (hmax hfits).2⟩

/-- The range from the least to the greatest finite number. -/
def widest : HeightRange := ⟨Float32.ofBits 0xff7fffff, Float32.ofBits 0x7f7fffff⟩

/-- It is valid, and it has no height for the highest sample. -/
theorem widest_has_no_top :
    widest.isValid = true ∧ widest.max ≤ widest.max ∧ widest.quantize widest.max ≠ 65535 := by
  decide +kernel

end HeightRange

end Relief
