import Mathlib
import Relief.Binary32

set_option autoImplicit false

/-! # Packing binary numbers

A binary number is computed with as a sign, a mantissa and an exponent, and kept as a pattern of
bits. A finite number has many mantissas; the one that packing expects is the canonical one
(`unpack_pack`), and it is the one that unpacking gives (`canonical_of_unpack`). So facts about
numbers can be stated about mantissas and exponents and carried over to the patterns. -/

namespace Relief.Binary

open Float.Model (Format UnpackedFloat)
open Float.Model.UnpackedFloat

variable {F : Format}

/-- A mantissa and an exponent as a format has them: the exponent is as small as the mantissa, or
    the format, allows. -/
structure Canonical (F : Format) (m : ℕ) (e : ℤ) : Prop where
  pos : 0 < m
  lt : m < 2 ^ F.mantissaBits
  least : F.minExponent ≤ e
  full : 2 ^ F.mantissaBitsWithoutImplicit ≤ m ∨ e = F.minExponent

/-! ## The numbers of a format -/

theorem mantissaBits_eq (F : Format) : F.mantissaBits = F.mantissaBitsWithoutImplicit + 1 :=
  Nat.add_comm _ _

/-- The greatest exponent of a finite number. -/
def topExponent (F : Format) : ℤ := F.exponentBias - F.mantissaBitsWithoutImplicit

theorem minExponent_eq (F : Format) :
    F.minExponent = 1 - F.exponentBias - F.mantissaBitsWithoutImplicit := by
  have hp : 1 ≤ 2 ^ (F.exponentBits - 1) := Nat.one_le_two_pow
  rw [Format.minExponent, Format.exponentBias, mantissaBits_eq, Nat.cast_sub hp]
  push_cast
  ring

theorem two_pow_exponentBits (F : Format) : 2 ^ F.exponentBits = 2 * F.exponentBias + 2 := by
  have hp : 1 ≤ 2 ^ (F.exponentBits - 1) := Nat.one_le_two_pow
  have heq : F.exponentBits = F.exponentBits - 1 + 1 := by
    have := F.he
    omega
  rw [heq, Nat.pow_succ, Format.exponentBias]
  omega

theorem implicit_append {k : ℕ} (m : BitVec k) : (1#1 ++ m).toNat = 2 ^ k + m.toNat := by
  rw [BitVec.toNat_append, ← Nat.shiftLeft_add_eq_or_of_lt m.isLt]
  simp [Nat.shiftLeft_eq]

theorem zero_ne_allOnes (F : Format) : 0#F.exponentBits ≠ -1#F.exponentBits := by
  intro h
  have h := congrArg BitVec.toNat h
  simp only [BitVec.neg_one_eq_allOnes, BitVec.toNat_allOnes, BitVec.toNat_zero,
    two_pow_exponentBits] at h
  omega

theorem finite_congr {s : Sign} {m m' : ℕ} {e e' : ℤ} {h : 0 < m} {h' : 0 < m'} (hm : m = m')
    (he : e = e') : UnpackedFloat.finite s m e h = .finite s m' e' h' := by
  subst hm he
  rfl

/-- The leading bit of a full mantissa is the one that is left out. -/
theorem log2_add_one_eq {m : ℕ} (h : m < 2 ^ F.mantissaBits) :
    m.log2 + 1 = F.mantissaBits ↔ 2 ^ F.mantissaBitsWithoutImplicit ≤ m := by
  have hbits := mantissaBits_eq F
  have hm := F.hm
  obtain rfl | hne := Nat.eq_zero_or_pos m
  · simp [Nat.log2_zero]
    omega
  have hlog := (Nat.log2_lt hne.ne').2 h
  rw [← Nat.le_log2 hne.ne']
  omega

theorem unpack_normal (s : Sign) {m b : ℕ} (hm : 2 ^ F.mantissaBitsWithoutImplicit ≤ m)
    (hlt : m < 2 ^ F.mantissaBits) (hb : 0 < b) (hfits : b + 1 < 2 ^ F.exponentBits) :
    unpack F (packComponents F s (BitVec.ofNat _ b) (BitVec.ofNat _ m))
      = .finite s m (b - (F.exponentBias + F.mantissaBitsWithoutImplicit : ℕ))
          ((Nat.two_pow_pos _).trans_le hm) := by
  have hexp : (BitVec.ofNat F.exponentBits b).toNat = b := by
    rw [BitVec.toNat_ofNat, Nat.mod_eq_of_lt (by omega)]
  have hzero : BitVec.ofNat F.exponentBits b ≠ 0#_ := by
    intro h
    have h := congrArg BitVec.toNat h
    rw [hexp, BitVec.toNat_zero] at h
    omega
  have hones : BitVec.ofNat F.exponentBits b ≠ -1#_ := by
    intro h
    have h := congrArg BitVec.toNat h
    rw [hexp, BitVec.neg_one_eq_allOnes, BitVec.toNat_allOnes] at h
    omega
  have hrest : 2 ^ F.mantissaBitsWithoutImplicit + m % 2 ^ F.mantissaBitsWithoutImplicit = m := by
    rw [mantissaBits_eq, Nat.pow_succ] at hlt
    rw [Nat.mod_eq_sub_mod hm, Nat.mod_eq_of_lt (by omega)]
    omega
  rw [unpack]
  simp only [unpackMantissa_packComponents, unpackExponent_packComponents,
    unpackSign_packComponents, Sign.ofBitVec_toBitVec, hones, hzero, ↓reduceIte]
  refine finite_congr ?_ ?_
  · rw [implicit_append, BitVec.toNat_ofNat, hrest]
  · rw [hexp]
    push_cast
    rfl

theorem unpack_subnormal (s : Sign) {m : ℕ} (hpos : 0 < m)
    (hm : m < 2 ^ F.mantissaBitsWithoutImplicit) :
    unpack F (packComponents F s 0#_ (BitVec.ofNat _ m)) = .finite s m F.minExponent hpos := by
  have hmant : (BitVec.ofNat F.mantissaBitsWithoutImplicit m).toNat = m := by
    rw [BitVec.toNat_ofNat, Nat.mod_eq_of_lt hm]
  have hne : BitVec.ofNat F.mantissaBitsWithoutImplicit m ≠ 0#_ := by
    intro h
    have h := congrArg BitVec.toNat h
    rw [hmant, BitVec.toNat_zero] at h
    omega
  rw [unpack]
  simp only [unpackMantissa_packComponents, unpackExponent_packComponents,
    unpackSign_packComponents, Sign.ofBitVec_toBitVec, zero_ne_allOnes, hne, ↓reduceIte,
    ↓reduceDIte]
  refine finite_congr hmant ?_
  rw [minExponent_eq, BitVec.toNat_zero]
  push_cast
  ring

/-- A canonical number whose exponent fits is packed without loss. -/
theorem unpack_pack (s : Sign) {m : ℕ} {e : ℤ} (hc : Canonical F m e) (he : e ≤ topExponent F) :
    unpack F (pack F (.finite s m e hc.pos)) = .finite s m e hc.pos := by
  have hleast := hc.least
  rw [minExponent_eq] at hleast
  rw [topExponent] at he
  have hcap := two_pow_exponentBits F
  rw [pack, if_neg (by omega)]
  by_cases hm : 2 ^ F.mantissaBitsWithoutImplicit ≤ m
  · rw [if_pos ((log2_add_one_eq hc.lt).2 hm), unpack_normal s hm hc.lt (by omega) (by omega)]
    refine finite_congr rfl ?_
    omega
  · rw [if_neg (mt (log2_add_one_eq hc.lt).1 hm), unpack_subnormal s hc.pos (by omega)]
    exact finite_congr rfl (hc.full.resolve_left hm).symm

theorem unpack_packedInfinity (s : Sign) : unpack F (packedInfinity F s) = .infinity s := by
  simp only [packedInfinity, unpack, unpackMantissa_packComponents, unpackExponent_packComponents,
    unpackSign_packComponents, Sign.ofBitVec_toBitVec, ↓reduceIte]
  rfl

/-- A canonical number is packed without loss, or as an infinity if its exponent does not fit. -/
theorem unpack_pack_canonical (s : Sign) {m : ℕ} {e : ℤ} (hc : Canonical F m e) :
    unpack F (pack F (.finite s m e hc.pos))
      = if e ≤ topExponent F then .finite s m e hc.pos else .infinity s := by
  by_cases he : e ≤ topExponent F
  · rw [if_pos he, unpack_pack s hc he]
  · have hcap := two_pow_exponentBits F
    rw [topExponent] at he
    rw [if_neg (by rw [topExponent]; exact he), pack, if_pos (by omega), unpack_packedInfinity]

/-- The exponent field of a finite number has a bit that is not set. -/
theorem toNat_add_one_lt {v : BitVec F.exponentBits} (h : v ≠ -1#_) :
    v.toNat + 1 < 2 ^ F.exponentBits := by
  have hlt := v.isLt
  have hne : v.toNat ≠ 2 ^ F.exponentBits - 1 := by
    intro he
    apply h
    rw [← BitVec.toNat_inj, he, BitVec.neg_one_eq_allOnes, BitVec.toNat_allOnes]
  omega

/-- What a finite number is unpacked to is canonical. -/
theorem canonical_of_unpack (hbias : 0 < F.exponentBias) {b : BitVec F.numBits} {s : Sign} {m : ℕ}
    {e : ℤ} {hm : 0 < m} (h : unpack F b = .finite s m e hm) :
    Canonical F m e ∧ e ≤ topExponent F := by
  have hcap := two_pow_exponentBits F
  have hmant := (unpackMantissa b).isLt
  have hwide : 2 ^ F.mantissaBits = 2 * 2 ^ F.mantissaBitsWithoutImplicit := by
    rw [mantissaBits_eq, Nat.pow_succ, Nat.mul_comm]
  simp only [unpack] at h
  split at h
  · split at h <;> cases h
  next hones =>
  have hexpo := toNat_add_one_lt hones
  split at h
  · next hzero =>
    split at h
    · cases h
    · injection h with hs hm' he
      have hleast : e = F.minExponent := by
        rw [← he, hzero, minExponent_eq, BitVec.toNat_zero]
        push_cast
        ring
      refine ⟨⟨hm, by omega, hleast.ge, .inr hleast⟩, ?_⟩
      rw [hleast, minExponent_eq, topExponent]
      omega
  · next hzero =>
    have hpos : 0 < (unpackExponent b).toNat := by
      rw [Nat.pos_iff_ne_zero, ne_eq, ← BitVec.toNat_zero (w := F.exponentBits), BitVec.toNat_inj]
      exact hzero
    injection h with hs hm' he
    rw [implicit_append] at hm'
    refine ⟨⟨hm, by omega, ?_, .inl (by omega)⟩, ?_⟩
    · rw [minExponent_eq]
      omega
    · rw [topExponent]
      omega

/-- A number in single precision is the packed form of its parts. -/
theorem ofModel_pack_unpack (x : Float32) : Float32.ofModel (.pack x.toModel.unpack) = x := by
  obtain ⟨⟨⟨bits⟩, hbits⟩⟩ := x
  have hmodel : Float32.Model.pack (unpack .binary32 bits) = ⟨⟨bits⟩, hbits⟩ := by
    rw [Float32.Model.mk.injEq]
    exact congrArg UInt32.ofBitVec (pack_unpack_of_valid hbits)
  exact congrArg Float32.ofModel hmodel

/-- A number is known by its bits. -/
theorem eq_of_toBits_eq {x y : Float32} (h : x.toBits = y.toBits) : x = y := by
  obtain ⟨⟨bits, hbits⟩⟩ := x
  obtain ⟨⟨bits', hbits'⟩⟩ := y
  obtain rfl : bits = bits' := h
  rfl

/-- Every number but a NaN equals itself. -/
theorem beq_self {x : Float32} (hx : x.isNaN = false) : (x == x) = true := by
  have hne : x ≠ Float32.nan := by
    rintro rfl
    exact absurd hx (by decide)
  exact Float32.beq_iff_ne_nan_and_eq.2 ⟨hne, hne, .inl rfl⟩

theorem isNaN_of_isFinite {x : Float32} (hx : x.isFinite = true) : x.isNaN = false := by
  rw [Bool.eq_false_iff]
  intro hnan
  have hfinite : x.toModel.unpack.isFinite = true := hx
  rw [Binary32.isNaN_iff.1 hnan] at hfinite
  cases hfinite

end Relief.Binary
