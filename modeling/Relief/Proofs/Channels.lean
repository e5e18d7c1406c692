import Relief.Proofs.Rounding
import Relief.Render.Scanline

set_option autoImplicit false

/-! # Channels: a colour channel as a byte

A channel is scaled by 255, clamped and truncated. Inside the unit interval this is plain
arithmetic. Outside of it the product is rounded before it is compared with the ends, and zeros and
infinities have signs.

What is not above zero ends as the byte 0, a NaN among it (`Pixel.toByte_scale_of_not_pos`): the
product has the sign of the channel, and the one number with a minus sign that the clamp lets
through is truncated to zero. What reaches one ends as the byte 255
(`Pixel.toByte_scale_of_one_le`): the number after one is so far from it that its product is above
255 even after rounding. -/

namespace Relief

namespace Binary

open Float.Model (Format UnpackedFloat)
open Float.Model.UnpackedFloat

variable {F : Format}

/-! ## Signs -/

/-- The sign of a number; a NaN has none. -/
def sign? : UnpackedFloat → Option Sign
  | .infinity s => some s
  | .zero s => some s
  | .finite s _ _ _ => some s
  | .notANumber => none

/-- Components whose exponent is not the greatest one are those of a number with their sign. -/
theorem sign?_unpack_packComponents (s : Sign) {b : BitVec F.exponentBits} (hb : b ≠ -1#_)
    (m : BitVec F.mantissaBitsWithoutImplicit) :
    sign? (unpack F (packComponents F s b m)) = some s := by
  simp only [unpack, unpackMantissa_packComponents, unpackExponent_packComponents,
    unpackSign_packComponents, Sign.ofBitVec_toBitVec, if_neg hb]
  split
  · split <;> rfl
  · rfl

/-- Packing keeps the sign. -/
theorem sign?_unpack_pack (u : UnpackedFloat) : sign? (unpack F (pack F u)) = sign? u := by
  cases u with
  | infinity s => rw [pack, unpack_packedInfinity]
  | notANumber => rw [pack, unpack_packedNaN]
  | zero s => rw [pack, unpack_packedZero]
  | finite s m e hm =>
      have hcap := two_pow_exponentBits F
      rw [pack]
      split
      · rw [unpack_packedInfinity]
        rfl
      · next hfits =>
        split
        · refine sign?_unpack_packComponents s ?_ _
          intro h
          have h := congrArg BitVec.toNat h
          rw [BitVec.toNat_ofNat, Nat.mod_eq_of_lt (by omega), BitVec.neg_one_eq_allOnes,
            BitVec.toNat_allOnes] at h
          omega
        · exact sign?_unpack_packComponents s (zero_ne_allOnes F) _

/-- Rounding keeps the sign. -/
theorem sign?_roundWithAccuracy (s : Sign) (m : ℕ) (e : ℤ) (acc : Accuracy) :
    sign? (roundWithAccuracy F s m e acc) = some s := by
  rw [roundWithAccuracy]
  dsimp only
  split <;> rfl

/-- A product with a positive number has the sign of the other factor. -/
theorem sign?_mul (u : UnpackedFloat) {m : ℕ} {e : ℤ} (hm : 0 < m) :
    sign? (mul F u (.finite .positive m e hm)) = sign? u := by
  cases u with
  | infinity s => cases s <;> rfl
  | notANumber => rfl
  | zero s => cases s <;> rfl
  | finite s m e _ =>
      rw [mul, sign?_roundWithAccuracy]
      cases s <;> rfl

end Binary

namespace Binary32

open Float.Model (Format UnpackedFloat)
open Float.Model.UnpackedFloat
open Binary

variable {x : Float32}

theorem unpack_byteTop :
    byteTop.toModel.unpack = .finite .positive (255 * 2 ^ 16) (-16) (by decide) := rfl

theorem unpack_one : one.toModel.unpack = .finite .positive (2 ^ 23) (-23) (by decide) := rfl

theorem mul_byteTop (x : Float32) : x * byteTop
    = .ofModel (.pack (mul .binary32 x.toModel.unpack byteTop.toModel.unpack)) := rfl

/-- Scaling keeps the sign. -/
theorem sign?_mul_byteTop (x : Float32) :
    sign? (x * byteTop).toModel.unpack = sign? x.toModel.unpack := by
  rw [mul_byteTop, unpack_byteTop]
  exact (sign?_unpack_pack _).trans (sign?_mul _ _)

/-- A number is known by its parts. -/
theorem ext_unpack {y : Float32} (h : x.toModel.unpack = y.toModel.unpack) : x = y := by
  rw [← ofModel_pack_unpack x, h, ofModel_pack_unpack]

/-- What has a minus sign is clamped to zero, but for the zero with that sign. -/
theorem toByte_clamp_of_negative (h : sign? x.toModel.unpack = some .negative) :
    toByte (clamp zero byteTop x) = 0 := by
  by_cases hlt : x < zero
  · rw [clamp, if_pos hlt]
    rfl
  · have hzero : x = -zero := by
      refine ext_unpack ?_
      rw [lt_iff] at hlt
      cases hx : x.toModel.unpack with
      | zero s =>
          rw [hx] at h
          cases h
          rfl
      | notANumber =>
          rw [hx] at h
          cases h
      | infinity s =>
          rw [hx] at h hlt
          cases h
          exact absurd rfl hlt
      | finite s m e hm =>
          rw [hx] at h hlt
          cases h
          exact absurd rfl hlt
    rw [hzero]
    decide

/-- What is not above zero is a NaN, has a minus sign, or is zero. -/
theorem sign_of_not_pos (h : ¬ zero < x) :
    x.isNaN = true ∨ sign? x.toModel.unpack = some .negative ∨ x = zero := by
  rw [lt_iff] at h
  cases hx : x.toModel.unpack with
  | notANumber => exact .inl (isNaN_iff.2 hx)
  | zero s =>
      cases s with
      | negative => exact .inr (.inl rfl)
      | positive => exact .inr (.inr (ext_unpack hx))
  | infinity s =>
      cases s with
      | negative => exact .inr (.inl rfl)
      | positive =>
          rw [hx] at h
          exact absurd rfl h
  | finite s m e hm =>
      cases s with
      | negative => exact .inr (.inl rfl)
      | positive =>
          rw [hx] at h
          exact absurd rfl h

/-! ## From one on -/

/-- A value above 255 is above the top byte as a number, also when it is packed. -/
theorem byteTop_lt_pack {m : ℕ} {e : ℤ} (hc : Canonical .binary32 m e)
    (hvalue : 255 < (m : ℚ) * 2 ^ e) :
    byteTop < .ofModel (.pack (.finite .positive m e hc.pos)) := by
  have hm : m < 2 ^ 24 := hc.lt
  have hm' : (m : ℚ) < 2 ^ 24 := by exact_mod_cast hm
  -- numbers are compared by their exponents first
  have hplace : -16 < e ∨ e = -16 ∧ 16711680 < m := by
    rcases lt_trichotomy (-16) e with he | rfl | he
    · exact .inl he
    · refine .inr ⟨rfl, ?_⟩
      have hlt : (16711680 : ℚ) < m := by
        norm_num at hvalue
        linarith
      exact_mod_cast hlt
    · exfalso
      have hpow : (2 : ℚ) ^ e ≤ 2 ^ (-17 : ℤ) :=
        zpow_le_zpow_right₀ one_le_two (Int.le_sub_one_of_lt he)
      have hsmall : (m : ℚ) * 2 ^ e ≤ 2 ^ 24 * 2 ^ (-17 : ℤ) := by gcongr
      norm_num at hsmall
      linarith
  rw [lt_iff, unpack_byteTop]
  show UnpackedFloat.lt _ (unpack .binary32 (pack .binary32 _)) = true
  rw [unpack_pack_canonical .positive hc]
  split
  · rcases hplace with he | ⟨rfl, hlt⟩
    · simp only [UnpackedFloat.lt, UnpackedFloat.compare, Int.compare_eq_lt.2 he]
      rfl
    · have hcompare : compare (255 * 2 ^ 16) m = .lt := Nat.compare_eq_lt.2 hlt
      simp only [UnpackedFloat.lt, UnpackedFloat.compare, hcompare]
      rfl
  · rfl

/-- What reaches one is one, is infinite, or is above one by at least a last place. -/
theorem parts_of_one_le (h : one ≤ x) : x = one ∨ x.toModel.unpack = .infinity .positive ∨
    ∃ (m : ℕ) (e : ℤ) (hm : 0 < m), x.toModel.unpack = .finite .positive m e hm ∧
      2 ^ 23 ≤ m ∧ (1 + 1 / 2 ^ 23 : ℚ) ≤ m * 2 ^ e := by
  have hle : one.toModel.unpack.le x.toModel.unpack = true := decide_eq_true_iff.1 h
  rw [unpack_one] at hle
  cases hx : x.toModel.unpack with
  | notANumber =>
      rw [hx] at hle
      cases hle
  | zero s =>
      rw [hx] at hle
      cases hle
  | infinity s =>
      cases s with
      | negative =>
          rw [hx] at hle
          cases hle
      | positive => exact .inr (.inl rfl)
  | finite s m e hm =>
      cases s with
      | negative =>
          rw [hx] at hle
          cases hle
      | positive =>
          obtain ⟨hc, -⟩ := canonical_of_unpack (by decide) hx
          rw [hx] at hle
          have hfull : -23 ≤ e → 2 ^ 23 ≤ m := by
            intro he
            refine hc.full.resolve_right ?_
            rw [show Format.minExponent .binary32 = -149 from rfl]
            omega
          rcases lt_trichotomy (-23) e with he | rfl | he
          · -- the next binade starts at two
            have hm' : ((2 ^ 23 : ℕ) : ℚ) ≤ m := by exact_mod_cast hfull he.le
            have hpow : (2 : ℚ) ^ (-22 : ℤ) ≤ 2 ^ e := zpow_le_zpow_right₀ one_le_two he
            have htwo : ((2 ^ 23 : ℕ) : ℚ) * 2 ^ (-22 : ℤ) ≤ m * 2 ^ e := by gcongr
            refine .inr (.inr ⟨m, e, hm, rfl, hfull he.le, le_trans ?_ htwo⟩)
            norm_num
          · rcases (hfull le_rfl).eq_or_lt with rfl | hlt
            · exact .inl (ext_unpack hx)
            · have hm' : (2 ^ 23 + 1 : ℚ) ≤ m := by exact_mod_cast hlt
              have hnext : (2 ^ 23 + 1 : ℚ) * 2 ^ (-23 : ℤ) ≤ m * 2 ^ (-23 : ℤ) := by gcongr
              refine .inr (.inr ⟨m, -23, hm, rfl, hlt.le, le_trans ?_ hnext⟩)
              norm_num
          · -- a smaller exponent is below one
            simp only [UnpackedFloat.le, UnpackedFloat.compare, Int.compare_eq_gt.2 he] at hle
            cases hle

/-- A number above one by at least a last place is scaled to more than 255. -/
theorem byteTop_lt_mul_byteTop {m : ℕ} {e : ℤ} {hm : 0 < m}
    (hx : x.toModel.unpack = .finite .positive m e hm) (hfull : 2 ^ 23 ≤ m)
    (hvalue : (1 + 1 / 2 ^ 23 : ℚ) ≤ m * 2 ^ e) : byteTop < x * byteTop := by
  have htop : (0 : ℕ) < 255 * 2 ^ 16 := by decide
  have hround : Rounded .binary32 (.positive * .positive)
      (m * 2 ^ e * ((255 * 2 ^ 16 : ℕ) * 2 ^ (-16 : ℤ)))
      (mul .binary32 (.finite .positive m e hm) (.finite .positive (255 * 2 ^ 16) (-16) htop)) :=
    mul_rounded hm htop (le_targetExponent _ (hfull.trans (Nat.le_mul_of_pos_right _ htop)))
  have hscale : ((255 * 2 ^ 16 : ℕ) : ℚ) * 2 ^ (-16 : ℤ) = 255 := by norm_num
  rw [hscale] at hround
  obtain ⟨m', e', hc, hproduct, -, hnear, -⟩ := hround.exists_near (by
    have hsmall : (2 : ℚ) ^ (Format.minExponent .binary32 + (23 : ℕ)) ≤ 2 ^ (0 : ℤ) :=
      zpow_le_zpow_right₀ one_le_two (by decide)
    refine hsmall.trans ?_
    norm_num at hvalue ⊢
    linarith)
  rw [mul_byteTop, hx, unpack_byteTop, hproduct]
  refine byteTop_lt_pack hc ?_
  -- rounding takes less from the product than the last place has added
  have hloss : |(m' : ℚ) * 2 ^ e' - m * 2 ^ e * 255| * 2 ^ 24 ≤ m * 2 ^ e * 255 := hnear
  have hclose := neg_abs_le (m' * 2 ^ e' - m * 2 ^ e * 255 : ℚ)
  norm_num at hloss hvalue
  linarith

/-- What is above the top byte is clamped to it. -/
theorem clamp_of_byteTop_lt (h : byteTop < x) : clamp zero byteTop x = byteTop := by
  have hlow : ¬ x < zero := by
    rw [lt_iff] at h ⊢
    cases hx : x.toModel.unpack with
    | notANumber => exact Bool.false_ne_true
    | zero s => exact Bool.false_ne_true
    | infinity s =>
        cases s with
        | positive => exact Bool.false_ne_true
        | negative =>
            rw [hx] at h
            exact absurd h Bool.false_ne_true
    | finite s m e hm =>
        cases s with
        | positive => exact Bool.false_ne_true
        | negative =>
            rw [hx] at h
            exact absurd h Bool.false_ne_true
  rw [clamp, if_neg hlow, if_pos h]

end Binary32

namespace Pixel

open Binary Binary32

variable {channel : Float32}

/-- **A channel that is not above zero is the byte 0**, whether it is negative, a zero of either
    sign or a NaN. -/
theorem toByte_scale_of_not_pos (h : ¬ zero < channel) :
    toByte (scale channel) = 0 := by
  rcases sign_of_not_pos h with hnan | hsign | rfl
  · exact toByte_scale_of_isNaN hnan
  · exact toByte_clamp_of_negative (by rw [sign?_mul_byteTop, hsign])
  · decide

/-- **A channel from one on is the byte 255**, up to infinity. -/
theorem toByte_scale_of_one_le (h : one ≤ channel) : toByte (scale channel) = 255 := by
  have htop : byteTop < channel * byteTop → toByte (scale channel) = 255 := by
    intro hlt
    rw [scale, clamp_of_byteTop_lt hlt]
    decide
  rcases parts_of_one_le h with rfl | hx | ⟨m, e, hm, hx, hfull, hvalue⟩
  · decide
  · refine htop ?_
    rw [mul_byteTop, hx]
    decide
  · exact htop (byteTop_lt_mul_byteTop hx hfull hvalue)

end Pixel

end Relief
