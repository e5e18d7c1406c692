import Relief.Proofs.Numerals
import Relief.Decimal.Reading

set_option autoImplicit false

/-! # Literals: a number is known by its text

Whatever the layout, the text of a decimal is read back as a decimal of the same value, though often
not with the same digits (`unsigned?_spell`). In an expression a number is spelled by the shortest
decimal that rounds to it, and no decimal rounds to two numbers (`Binary.RoundsTo.unique`), so that
numbers with the same text are the same (`spell32_injective`). All NaNs share one text, and the text
of a number has a point or a letter that no whole number has (`spell32_cases`). -/

namespace Relief.Decimal

open Float.Model (Format UnpackedFloat)
open Float.Model.UnpackedFloat (Sign)
open Json (digits_toDigits isDigit_of_mem_zeros ofDigitChars_zeros takeWhile_append)
open Binary (RoundsTo Rounded InBinade exists_isNearest)

/-! ## Reading a spelled decimal -/

/-- The number that a decimal stands for. -/
def toRat (d : Decimal) : ℚ := d.digits * 10 ^ d.exponent

theorem valueOf_eq (cs : List Char) : valueOf cs = Nat.ofDigitChars 10 cs 0 := by
  rw [valueOf, Nat.ofDigitChars_eq_foldl]
  simp only [Nat.mul_comm]

/-- Whether characters are digits. -/
def AllDigits (cs : List Char) : Prop := ∀ c ∈ cs, isDigit c = true

theorem allDigits_toDigits (n : ℕ) : AllDigits (Nat.toDigits 10 n) := (digits_toDigits n).all

/-- What follows the digits of a decimal. -/
def suffix? : List Char → Option Int
  | [] => some 0
  | 'e' :: after | 'E' :: after => exponent? after
  | _ => none

/-- A decimal with a point. -/
theorem unsigned?_point {ws fs rest : List Char} {e : ℤ} (hws : AllDigits ws) (hfs : AllDigits fs)
    (hne : ws ++ fs ≠ []) (hrest : ∀ c, rest.head? = some c → isDigit c = false)
    (he : suffix? rest = some e) :
    unsigned? (ws ++ '.' :: (fs ++ rest)) = some ⟨valueOf (ws ++ fs), e - fs.length⟩ := by
  have hpoint : ∀ c, ('.' :: (fs ++ rest)).head? = some c → isDigit c = false := by
    rintro c ⟨rfl⟩
    rfl
  obtain ⟨htake, hdrop⟩ := takeWhile_append hws hpoint
  obtain ⟨htake', hdrop'⟩ := takeWhile_append hfs hrest
  simp only [unsigned?, htake, hdrop, htake', hdrop', List.isEmpty_iff, hne, if_false]
  exact Option.map_eq_some_iff.2 ⟨e, he, rfl⟩

/-- A decimal without one. -/
theorem unsigned?_whole {ws rest : List Char} {e : ℤ} (hws : AllDigits ws) (hne : ws ≠ [])
    (hrest : ∀ c, rest.head? = some c → isDigit c = false ∧ c ≠ '.')
    (he : suffix? rest = some e) : unsigned? (ws ++ rest) = some ⟨valueOf ws, e⟩ := by
  obtain ⟨htake, hdrop⟩ := takeWhile_append hws fun c hc => (hrest c hc).1
  unfold unsigned?
  simp only [htake, hdrop]
  split
  · next after => exact absurd rfl (hrest '.' rfl).2
  · simp only [List.append_nil, List.isEmpty_iff, hne, if_false, List.length_nil, Nat.cast_zero,
      sub_zero]
    exact Option.map_eq_some_iff.2 ⟨e, he, rfl⟩

theorem takeSign_toDigits (n : ℕ) :
    takeSign (Nat.toDigits 10 n) = (false, Nat.toDigits 10 n) := by
  have hall := allDigits_toDigits n
  unfold takeSign
  split
  · next h => cases hall '-' (by rw [h]; exact List.mem_cons_self ..)
  · next h => cases hall '+' (by rw [h]; exact List.mem_cons_self ..)
  · rfl

/-- The sign of an exponent as it is written. -/
def exponentSign (plusSign : Bool) (e : ℤ) : List Char :=
  if e < 0 then ['-'] else if plusSign then ['+'] else []

theorem exponent?_spell (plusSign : Bool) (e : ℤ) :
    exponent? (exponentSign plusSign e ++ Nat.toDigits 10 e.natAbs) = some e := by
  have hempty : (Nat.toDigits 10 e.natAbs).isEmpty = false := by
    rw [List.isEmpty_eq_false_iff]
    exact Nat.toDigits_ne_nil
  have hall : (Nat.toDigits 10 e.natAbs).all isDigit = true :=
    List.all_eq_true.2 (allDigits_toDigits e.natAbs)
  have hvalue : valueOf (Nat.toDigits 10 e.natAbs) = e.natAbs := by
    rw [valueOf_eq, Nat.ofDigitChars_ten_toDigits]
  obtain ⟨negative, hsign, hback⟩ : ∃ negative,
      takeSign (exponentSign plusSign e ++ Nat.toDigits 10 e.natAbs)
        = (negative, Nat.toDigits 10 e.natAbs) ∧
      (if negative then -(e.natAbs : ℤ) else e.natAbs) = e := by
    unfold exponentSign
    split
    · exact ⟨true, rfl, by rw [if_pos rfl]; omega⟩
    · refine ⟨false, ?_, by rw [if_neg Bool.false_ne_true]; omega⟩
      cases plusSign with
      | true => rfl
      | false => exact takeSign_toDigits e.natAbs
  simp only [exponent?, hsign, hempty, hall, hvalue, hback, Bool.not_true, Bool.or_self,
    Bool.false_eq_true, if_false]

/-- The letter of an exponent is no digit and no point. -/
theorem head_suffix (cs : List Char) :
    ∀ c, ('e' :: cs).head? = some c → isDigit c = false ∧ c ≠ '.' := by
  rintro c ⟨rfl⟩
  exact ⟨rfl, by decide⟩

section

variable {n : ℕ} {k : ℤ}

theorem toRat_tenths (n j : ℕ) :
    toRat ⟨valueOf (Nat.toDigits 10 n ++ List.replicate j '0' ++ ['0']), -1⟩
      = n * 10 ^ (j : ℤ) := by
  have hvalue : valueOf (Nat.toDigits 10 n ++ List.replicate j '0' ++ ['0'])
      = n * 10 ^ (j + 1) := by
    rw [List.append_assoc, ← List.replicate_succ', valueOf_eq, ofDigitChars_zeros]
  rw [toRat, hvalue]
  push_cast
  rw [pow_succ, zpow_neg, zpow_one, zpow_natCast]
  field_simp

theorem AllDigits.append {ds fs : List Char} (hds : AllDigits ds) (hfs : AllDigits fs) :
    AllDigits (ds ++ fs) :=
  List.forall_mem_append.2 ⟨hds, hfs⟩

theorem allDigits_zeros (j : ℕ) : AllDigits (List.replicate j '0') :=
  fun _ => isDigit_of_mem_zeros

/-- **A text without an exponent is read back.** -/
theorem unsigned?_spellPlain (pointZero : Bool) (n : ℕ) (k : ℤ) :
    ∃ d, unsigned? (spellPlain pointZero (Nat.toDigits 10 n) k) = some d ∧
      d.toRat = n * 10 ^ k := by
  have hdigits := allDigits_toDigits n
  have hne : Nat.toDigits 10 n ≠ [] := Nat.toDigits_ne_nil
  have hnil : ∀ c, ([] : List Char).head? = some c → isDigit c = false := nofun
  unfold spellPlain
  split
  · next hk =>
    have hwhole := hdigits.append (allDigits_zeros k.toNat)
    have hk' : ((k.toNat : ℕ) : ℤ) = k := Int.toNat_of_nonneg hk
    cases pointZero with
    | true =>
      refine ⟨_, unsigned?_point hwhole (allDigits_zeros 1) (by simp) hnil rfl, ?_⟩
      rw [← hk']
      exact toRat_tenths n k.toNat
    | false =>
      refine ⟨_, unsigned?_whole hwhole (by simp [hne]) nofun rfl, ?_⟩
      rw [toRat, valueOf_eq, ofDigitChars_zeros, zpow_zero, mul_one, ← hk', zpow_natCast]
      push_cast
      rfl
  · next hk =>
    -- The digits stand behind the point or on both sides of it, and are read without it.
    have hk' : 0 - ((-k).toNat : ℤ) = k := by omega
    dsimp only
    split
    · next hwhole =>
      have hread := unsigned?_point (allDigits_zeros 1)
        ((allDigits_zeros ((-k).toNat - (Nat.toDigits 10 n).length)).append hdigits) (by simp)
        hnil rfl
      rw [List.append_nil] at hread
      refine ⟨_, hread, ?_⟩
      rw [toRat, ← List.append_assoc, List.replicate_append_replicate, valueOf_eq,
        Nat.ofDigitChars_append, Nat.ofDigitChars_replicate_zero, Nat.mul_zero,
        Nat.ofDigitChars_ten_toDigits, List.length_append, List.length_replicate,
        Nat.sub_add_cancel (by omega), hk']
    · next hwhole =>
      have hbefore : AllDigits
          ((Nat.toDigits 10 n).take ((Nat.toDigits 10 n).length - (-k).toNat)) :=
        fun c hc => hdigits c (List.mem_of_mem_take hc)
      have hbehind : AllDigits
          ((Nat.toDigits 10 n).drop ((Nat.toDigits 10 n).length - (-k).toNat)) :=
        fun c hc => hdigits c (List.mem_of_mem_drop hc)
      have hread := unsigned?_point hbefore hbehind (by rwa [List.take_append_drop]) hnil rfl
      rw [List.append_nil] at hread
      refine ⟨_, hread, ?_⟩
      rw [List.take_append_drop, toRat, valueOf_eq, Nat.ofDigitChars_ten_toDigits,
        List.length_drop, Nat.sub_sub_self (by omega), hk']

/-- **A text with an exponent is read back.** -/
theorem unsigned?_spellScientific (plusSign : Bool) (n : ℕ) (k : ℤ) :
    ∃ d, unsigned? (spellScientific plusSign (Nat.toDigits 10 n) k) = some d ∧
      d.toRat = n * 10 ^ k := by
  have hdigits := allDigits_toDigits n
  have hvalue : valueOf (Nat.toDigits 10 n) = n := by
    rw [valueOf_eq, Nat.ofDigitChars_ten_toDigits]
  obtain ⟨c, rest, hcs⟩ := List.exists_cons_of_ne_nil (Nat.toDigits_ne_nil (b := 10) (n := n))
  rw [hcs] at hdigits hvalue ⊢
  obtain ⟨hc, hrest⟩ := List.forall_mem_cons.1 hdigits
  have hone : AllDigits [c] := List.forall_mem_singleton.2 hc
  -- The letter and what follows it name the exponent of the leading digit.
  have hsuffix : suffix? ('e' :: (exponentSign plusSign (leading (c :: rest) k)
      ++ (toString (leading (c :: rest) k).natAbs).toList)) = some (leading (c :: rest) k) := by
    rw [Nat.toString_eq_repr, Nat.toList_repr]
    exact exponent?_spell plusSign _
  cases rest with
  | nil =>
    have hread := unsigned?_whole hone (List.cons_ne_nil c []) (head_suffix _) hsuffix
    refine ⟨_, hread, ?_⟩
    have hlead : leading [c] k = k := by simp [leading]
    rw [toRat, hvalue, hlead]
  | cons c' cs =>
    have hread := unsigned?_point hone hrest (List.cons_ne_nil c _)
      (fun d hd => (head_suffix _ d hd).1) hsuffix
    have hspell : spellScientific plusSign (c :: c' :: cs) k
        = [c] ++ '.' :: ((c' :: cs) ++ 'e' :: (exponentSign plusSign (leading (c :: c' :: cs) k)
          ++ (toString (leading (c :: c' :: cs) k).natAbs).toList)) :=
      List.append_assoc (c :: '.' :: c' :: cs) ('e' :: _) _
    rw [hspell]
    refine ⟨_, hread, ?_⟩
    have hlead : leading (c :: c' :: cs) k - (c' :: cs).length = k := by
      simp only [leading, List.length_cons]
      push_cast
      ring
    rw [toRat, List.singleton_append, hvalue, hlead]

/-- A decimal is written without an exponent or with one. -/
theorem spell_cases (layout : Layout) (d : Decimal) :
    layout.spell d
        = spellPlain layout.pointZero (Nat.toDigits 10 d.digits) d.exponent ∨
      layout.spell d
        = spellScientific layout.plusSign (Nat.toDigits 10 d.digits) d.exponent := by
  rw [Layout.spell, Nat.toString_eq_repr, Nat.toList_repr]
  exact ite_eq_or_eq ..

/-- **Every layout spells a decimal so that its value is read back.** -/
theorem unsigned?_spell (layout : Layout) (d : Decimal) :
    ∃ d', unsigned? (layout.spell d) = some d' ∧ d'.toRat = d.toRat := by
  rcases spell_cases layout d with hspell | hspell
  · rw [hspell]
    exact unsigned?_spellPlain layout.pointZero d.digits d.exponent
  · rw [hspell]
    exact unsigned?_spellScientific layout.plusSign d.digits d.exponent

end

/-! ## One number for a text -/

/-- The text of a number behind its sign, and what it says: the word for infinity, a decimal of
    value zero, or a decimal that rounds to the number. -/
inductive Body (s : Sign) : List Char → UnpackedFloat → Prop
  | infinity : Body s ['i', 'n', 'f'] (.infinity s)
  | zero {cs : List Char} {d : Decimal} (hread : unsigned? cs = some d) (hzero : d.toRat = 0) :
    Body s cs (.zero s)
  | finite {cs : List Char} {d : Decimal} (hread : unsigned? cs = some d) {m : ℕ} {e : ℤ}
    (hrounds : RoundsTo .binary32 d.toRat m e) : Body s cs (.finite s m e hrounds.pos)

section

variable {s s' : Sign} {cs cs' : List Char} {u u' : UnpackedFloat}

/-- An unsigned decimal has no sign. -/
theorem head_unsigned? {d : Decimal} (h : unsigned? cs = some d) : cs.head? ≠ some '-' := by
  intro hhead
  obtain ⟨rest, rfl⟩ : ∃ rest, cs = '-' :: rest := List.head?_eq_some_iff.1 hhead
  cases h

theorem Body.head (h : Body s cs u) : cs.head? ≠ some '-' := by
  cases h with
  | infinity => decide
  | zero hread | finite hread => exact head_unsigned? hread

/-- The text behind the sign says which number it is. -/
theorem Body.unique (h : Body s cs u) (h' : Body s cs u') : u = u' := by
  cases h with
  | infinity =>
    cases h' with
    | infinity => rfl
    | zero hread | finite hread => cases hread
  | zero hread hzero =>
    cases h' with
    | infinity => cases hread
    | zero => rfl
    | finite hread' hrounds =>
      obtain rfl := Option.some.inj (hread.symm.trans hread')
      exact absurd hzero hrounds.value_pos.ne'
  | finite hread hrounds =>
    cases h' with
    | infinity => cases hread
    | zero hread' hzero =>
      obtain rfl := Option.some.inj (hread.symm.trans hread')
      exact absurd hzero hrounds.value_pos.ne'
    | finite hread' hrounds' =>
      obtain rfl := Option.some.inj (hread.symm.trans hread')
      obtain ⟨rfl, rfl⟩ := hrounds.unique hrounds'
      rfl

/-- A sign and what stands behind it can be told apart. -/
theorem signMark_append_inj (hcs : cs.head? ≠ some '-') (hcs' : cs'.head? ≠ some '-')
    (h : signMark s ++ cs = signMark s' ++ cs') : s = s' ∧ cs = cs' := by
  cases s with
  | positive =>
    cases s' with
    | positive => exact ⟨rfl, h⟩
    | negative => exact absurd (congrArg List.head? h) hcs
  | negative =>
    cases s' with
    | positive => exact absurd (congrArg List.head? h).symm hcs'
    | negative => exact ⟨rfl, (List.cons.inj h).2⟩

end

section

variable (layout : Layout) {x y : Float32}

/-- A number that is not a NaN is spelled as a sign and a text that says which number it is. -/
theorem exists_body (hx : x.isNaN = false) :
    ∃ s cs, layout.spell32 x = signMark s ++ cs ∧ Body s cs x.toModel.unpack := by
  rw [Layout.spell32]
  cases hu : x.toModel.unpack with
  | notANumber =>
    rw [Binary32.isNaN_iff.2 hu] at hx
    cases hx
  | infinity s => exact ⟨s, _, rfl, .infinity⟩
  | zero s =>
    obtain ⟨d, hread, hvalue⟩ := unsigned?_spell layout ⟨0, 0⟩
    refine ⟨s, _, rfl, .zero hread ?_⟩
    rw [hvalue, toRat, Nat.cast_zero, zero_mul]
  | finite s m e hm =>
    obtain ⟨hc, he⟩ := Binary.canonical_of_unpack (by decide) hu
    obtain ⟨d, hd, -, -, -, hfound⟩ := shortest_binary32 hc he
    obtain ⟨d', hread, hvalue⟩ := unsigned?_spell layout (shortest .binary32 m e)
    have hrounds : RoundsTo .binary32 d'.toRat m e := by
      rw [hvalue, hd]
      exact roundsTo_of_nearest? hc hfound
    exact ⟨s, _, rfl, .finite hread hrounds⟩

/-- **A number that is not a NaN is known by its text.** -/
theorem spell32_injective (hx : x.isNaN = false) (hy : y.isNaN = false)
    (h : layout.spell32 x = layout.spell32 y) : x = y := by
  obtain ⟨s, cs, hspell, hbody⟩ := exists_body layout hx
  obtain ⟨s', cs', hspell', hbody'⟩ := exists_body layout hy
  rw [hspell, hspell'] at h
  obtain ⟨rfl, rfl⟩ := signMark_append_inj hbody.head hbody'.head h
  rw [← Binary.ofModel_pack_unpack x, hbody.unique hbody', Binary.ofModel_pack_unpack]

end

/-! ## What the text of a number looks like -/

/-- The characters of decimals. -/
def isNumeric (c : Char) : Bool := isDigit c || c = '-' || c = '.' || c = 'e'

/-- Texts of decimals, told from whole numbers by a point or an exponent. -/
structure IsNumeral (cs : List Char) : Prop where
  all : ∀ c ∈ cs, isNumeric c = true
  mark : '.' ∈ cs ∨ 'e' ∈ cs

section

variable {cs fs : List Char}

theorem AllDigits.isNumeric (h : AllDigits cs) : ∀ c ∈ cs, isNumeric c = true := fun c hc => by
  rw [Decimal.isNumeric, h c hc, Bool.true_or, Bool.true_or, Bool.true_or]

theorem isNumeral_point (hcs : AllDigits cs) (hfs : AllDigits fs) : IsNumeral (cs ++ '.' :: fs) :=
  ⟨List.forall_mem_append.2 ⟨hcs.isNumeric, List.forall_mem_cons.2 ⟨rfl, hfs.isNumeric⟩⟩,
    .inl (List.mem_append_right cs (List.mem_cons_self ..))⟩

theorem isNumeral_spellPlain (hcs : AllDigits cs) (k : ℤ) : IsNumeral (spellPlain true cs k) := by
  unfold spellPlain
  split
  · exact isNumeral_point (hcs.append (allDigits_zeros _)) (allDigits_zeros 1)
  · dsimp only
    split
    · exact isNumeral_point (allDigits_zeros 1) ((allDigits_zeros _).append hcs)
    · exact isNumeral_point (fun c hc => hcs c (List.mem_of_mem_take hc))
        (fun c hc => hcs c (List.mem_of_mem_drop hc))

theorem isNumeral_exponent (hcs : ∀ c ∈ cs, isNumeric c = true) (e : ℤ) :
    IsNumeral (cs ++ 'e' :: (exponentSign false e ++ Nat.toDigits 10 e.natAbs)) := by
  have hsign : ∀ c ∈ exponentSign false e, isNumeric c = true := by
    unfold exponentSign
    split
    · exact List.forall_mem_singleton.2 rfl
    · exact nofun
  have hafter := List.forall_mem_append.2 ⟨hsign, (allDigits_toDigits e.natAbs).isNumeric⟩
  exact ⟨List.forall_mem_append.2 ⟨hcs, List.forall_mem_cons.2 ⟨rfl, hafter⟩⟩,
    .inr (List.mem_append_right cs (List.mem_cons_self ..))⟩

theorem isNumeral_spellScientific (hcs : AllDigits cs) (k : ℤ) :
    IsNumeral (spellScientific false cs k) := by
  have hsuffix : (toString (leading cs k).natAbs).toList
      = Nat.toDigits 10 (leading cs k).natAbs := by
    rw [Nat.toString_eq_repr, Nat.toList_repr]
  unfold spellScientific
  dsimp only
  rw [hsuffix, List.append_assoc, List.cons_append]
  refine isNumeral_exponent ?_ _
  split
  · exact nofun
  · exact hcs.isNumeric
  · next d rest _ =>
    obtain ⟨hd, hrest⟩ := List.forall_mem_cons.1 hcs.isNumeric
    exact List.forall_mem_cons.2 ⟨hd, List.forall_mem_cons.2 ⟨rfl, hrest⟩⟩

theorem isNumeral_spell (d : Decimal) : IsNumeral (Layout.expression.spell d) := by
  have hdigits := allDigits_toDigits d.digits
  rcases spell_cases .expression d with hspell | hspell
  · rw [hspell]
    exact isNumeral_spellPlain hdigits d.exponent
  · rw [hspell]
    exact isNumeral_spellScientific hdigits d.exponent

theorem IsNumeral.signMark (h : IsNumeral cs) (s : Sign) : IsNumeral (signMark s ++ cs) := by
  cases s with
  | positive => exact h
  | negative =>
    exact ⟨List.forall_mem_cons.2 ⟨rfl, h.all⟩,
      h.mark.imp (List.mem_cons_of_mem _) (List.mem_cons_of_mem _)⟩

end

section

variable {x : Float32}

/-- All NaNs are spelled alike. -/
theorem spell32_of_isNaN (layout : Layout) (hx : x.isNaN = true) :
    layout.spell32 x = ['N', 'a', 'N'] := by
  rw [Layout.spell32, Binary32.isNaN_iff.1 hx]
  rfl

/-- **In an expression a number is a decimal or infinite, unless it is a NaN.** -/
theorem spell32_cases (hx : x.isNaN = false) :
    (∃ s, Layout.expression.spell32 x = signMark s ++ ['i', 'n', 'f']) ∨
      IsNumeral (Layout.expression.spell32 x) := by
  rw [Layout.spell32]
  cases hu : x.toModel.unpack with
  | notANumber =>
    rw [Binary32.isNaN_iff.2 hu] at hx
    cases hx
  | infinity s => exact .inl ⟨s, rfl⟩
  | zero s => exact .inr ((isNumeral_spell _).signMark s)
  | finite s m e hm => exact .inr ((isNumeral_spell _).signMark s)

end

end Relief.Decimal
