import Relief.Proofs.Rereading
import Relief.Project.Printer
import Relief.Json.Record

set_option autoImplicit false

/-! # Numerals: the numbers of a document and their texts

A decimal is spelled with a fraction, with an exponent or with both (`Numeral`), and each text names
a significand and an exponent that the reader computes from. The spelled text does not always name
the decimal's own pair: a whole number gets a zero behind its point and is read in tenths
(`Decimal.Form`). Both forms are small enough to be read without loss, so a finite number comes back
(`readSingle_number`), a zero with its sign, and so does a whole number (`readInteger_whole`). -/

namespace Relief.Json

open Float.Model.UnpackedFloat (Sign)

/-! ## Digits -/

/-- Whether nothing at the front of the characters continues a number. -/
def Stops (cs : List Char) : Prop :=
  ∀ c, cs.head? = some c → isDigit c = false ∧ c ≠ '.' ∧ c ≠ 'e' ∧ c ≠ 'E'

/-- The values of digits. -/
def digitValues (cs : List Char) : List Nat := cs.map fun c => c.toNat - '0'.toNat

theorem isDigit_eq (c : Char) : isDigit c = c.isDigit := rfl

/-- The characters at the front that have a property, up to the first one that has it not. -/
theorem takeWhile_append {p : Char → Bool} {front rest : List Char}
    (hfront : ∀ c ∈ front, p c = true) (hrest : ∀ c, rest.head? = some c → p c = false) :
    (front ++ rest).takeWhile p = front ∧ (front ++ rest).dropWhile p = rest := by
  rw [List.takeWhile_append_of_pos hfront, List.dropWhile_append_of_pos hfront]
  cases rest with
  | nil => simp
  | cons c cs => simp [hrest c rfl]

theorem digitsOf_append {ds rest : List Char} (hds : ∀ c ∈ ds, isDigit c = true)
    (hrest : ∀ c, rest.head? = some c → isDigit c = false) :
    digitsOf (ds ++ rest) = (digitValues ds, rest) := by
  obtain ⟨htake, hdrop⟩ := takeWhile_append hds hrest
  rw [digitsOf, htake, hdrop]
  rfl

theorem le_ofDigitChars (cs : List Char) (n : Nat) : n ≤ Nat.ofDigitChars 10 cs n := by
  induction cs generalizing n with
  | nil => simp
  | cons c cs ih =>
    rw [Nat.ofDigitChars_cons]
    exact le_trans (by omega) (ih _)

/-- Digits whose number fits are absorbed without a rest. -/
theorem absorb_digitValues {cs : List Char} {n : Nat}
    (h : Nat.ofDigitChars 10 cs n ≤ significandTop) :
    absorb n (digitValues cs) = (Nat.ofDigitChars 10 cs n, []) := by
  induction cs generalizing n with
  | nil => simp [digitValues, absorb]
  | cons c cs ih =>
    rw [Nat.ofDigitChars_cons, Nat.mul_comm] at h ⊢
    have hfits := (le_ofDigitChars cs _).trans h
    show absorb n ((c.toNat - '0'.toNat) :: digitValues cs) = _
    rw [absorb, if_pos hfits, ih h]

theorem digitsValue_digitValues (cs : List Char) :
    digitsValue (digitValues cs) = Nat.ofDigitChars 10 cs 0 := by
  rw [digitsValue, digitValues, List.foldl_map, Nat.ofDigitChars_eq_foldl]
  simp only [Nat.mul_comm]

theorem isDigit_of_mem_toDigits {c : Char} {n : Nat} (h : c ∈ Nat.toDigits 10 n) :
    isDigit c = true := by
  rw [isDigit_eq]
  exact Nat.isDigit_of_mem_toDigits (by decide) (by decide) h

/-- A number does not start with a zero, unless it is zero. -/
theorem head_toDigits {n : Nat} (hn : 0 < n) : (Nat.toDigits 10 n).head? ≠ some '0' := by
  induction n using Nat.strongRecOn with
  | ind n ih =>
    rw [Nat.toDigits_eq_if (by decide)]
    split
    · simp
      omega
    · next hlt =>
      have hdiv : 0 < n / 10 := by omega
      rw [List.head?_append_of_ne_nil _ Nat.toDigits_ne_nil]
      exact ih (n / 10) (by omega) hdiv

/-! ## Numerals -/

/-- A run of digits. -/
structure Digits (cs : List Char) : Prop where
  all : ∀ c ∈ cs, isDigit c = true
  ne_nil : cs ≠ []

/-- The digits before the point: none stand behind a leading zero. -/
structure WholePart (cs : List Char) : Prop extends Digits cs where
  leading : cs.head? = some '0' → cs.length = 1

theorem digits_toDigits (n : ℕ) : Digits (Nat.toDigits 10 n) :=
  ⟨fun _ => isDigit_of_mem_toDigits, Nat.toDigits_ne_nil⟩

theorem wholePart_toDigits (n : ℕ) : WholePart (Nat.toDigits 10 n) := by
  refine ⟨digits_toDigits n, fun h => ?_⟩
  by_cases hn : 0 < n
  · exact absurd h (head_toDigits hn)
  · obtain rfl : n = 0 := by omega
    rfl

theorem digitValue_eq_zero {c : Char} (hc : isDigit c = true) (h : c.toNat - '0'.toNat = 0) :
    c = '0' := by
  simp only [isDigit, Bool.and_eq_true, decide_eq_true_eq] at hc
  have hle : '0'.toNat ≤ c.toNat := hc.1
  exact Char.ext (UInt32.toNat_inj.1 (show c.toNat = '0'.toNat by omega))

theorem WholePart.shape {cs : List Char} (h : WholePart cs) :
    ∃ d ds, digitValues cs = d :: ds ∧ (d = 0 → ds = []) := by
  obtain ⟨c, cs, rfl⟩ := List.exists_cons_of_ne_nil h.ne_nil
  refine ⟨c.toNat - '0'.toNat, digitValues cs, rfl, fun h0 => ?_⟩
  have hc := digitValue_eq_zero (h.all c (List.mem_cons_self ..)) h0
  have hlen := h.leading (by rw [hc]; rfl)
  obtain rfl : cs = [] := by simpa using hlen
  rfl

/-- A sign and digits behind the letter of an exponent. -/
def signedDigits (down : Bool) (es : List Char) : List Char := (if down then '-' else '+') :: es

/-- The exponent that they name. -/
def signedValue (down : Bool) (e : ℕ) : ℤ := if down then -e else e

/-- The texts of numbers in double precision without a sign, each with the significand and the
    exponent it names. -/
inductive Numeral : List Char → ℕ → ℤ → Prop
  | fraction {ws fs : List Char} (hws : WholePart ws) (hfs : Digits fs) :
    Numeral (ws ++ '.' :: fs) (Nat.ofDigitChars 10 (ws ++ fs) 0) (-fs.length)
  | exponent {ws es : List Char} (hws : WholePart ws) (hes : Digits es) (down : Bool)
    (htop : Nat.ofDigitChars 10 es 0 ≤ exponentTop) :
    Numeral (ws ++ 'e' :: signedDigits down es) (Nat.ofDigitChars 10 ws 0)
      (signedValue down (Nat.ofDigitChars 10 es 0))
  | both {ws fs es : List Char} (hws : WholePart ws) (hfs : Digits fs) (hes : Digits es)
    (down : Bool) (htop : Nat.ofDigitChars 10 es 0 ≤ exponentTop) :
    Numeral (ws ++ '.' :: (fs ++ 'e' :: signedDigits down es)) (Nat.ofDigitChars 10 (ws ++ fs) 0)
      (-fs.length + signedValue down (Nat.ofDigitChars 10 es 0))

/-! ## Reading numerals -/

/-- How a number goes on after its first digits. -/
def afterWhole (negative : Bool) (n : ℕ) : Reader Number := fun rest =>
  match rest with
  | '.' :: after => (readFraction negative n 0 after).map fun (x, r) => (.real x, r)
  | 'e' :: after | 'E' :: after =>
    (readExponent negative n 0 after).map fun (x, r) => (.real x, r)
  | _ => .ok (wholeOf negative n, rest)

/-- How a number goes on after its first digits, the last of which may not have fitted. -/
def afterDigits (negative : Bool) (n : ℕ) (left : List ℕ) : Reader Number := fun rest =>
  match rest with
  | '.' :: after => (readFraction negative n left.length after).map fun (x, r) => (.real x, r)
  | 'e' :: after | 'E' :: after =>
    (readExponent negative n left.length after).map fun (x, r) => (.real x, r)
  | _ =>
    if left.isEmpty then .ok (wholeOf negative n, rest)
    else (realOf negative n left.length).map fun x => (.real x, rest)

/-- How a fraction goes on after its digits. -/
def afterFraction (negative : Bool) (n : ℕ) (scaled : ℤ) : Reader Float := fun rest =>
  match rest with
  | 'e' :: after | 'E' :: after => readExponent negative n scaled after
  | _ => (realOf negative n scaled).map fun x => (x, rest)

section

variable {cs ws fs es rest : List Char} {n : ℕ} {e : ℤ} (negative : Bool)

theorem readNumber_eq_afterDigits (hws : WholePart ws)
    (hrest : ∀ c, rest.head? = some c → isDigit c = false) :
    readNumber negative (ws ++ rest) = afterDigits negative (absorb 0 (digitValues ws)).1
      (absorb 0 (digitValues ws)).2 rest := by
  obtain ⟨d, ds, hds, hzero⟩ := hws.shape
  rw [readNumber, digitsOf_append hws.all hrest, hds]
  cases d with
  | zero =>
    obtain rfl := hzero rfl
    rfl
  | succ d => rfl

theorem readNumber_eq (hws : WholePart ws) (hfits : Nat.ofDigitChars 10 ws 0 ≤ significandTop)
    (hrest : ∀ c, rest.head? = some c → isDigit c = false) :
    readNumber negative (ws ++ rest) = afterWhole negative (Nat.ofDigitChars 10 ws 0) rest := by
  rw [readNumber_eq_afterDigits negative hws hrest, absorb_digitValues hfits]
  rfl

theorem readFraction_eq (hfs : Digits fs) (hfits : Nat.ofDigitChars 10 fs n ≤ significandTop)
    (hrest : ∀ c, rest.head? = some c → isDigit c = false) :
    readFraction negative n e (fs ++ rest)
      = afterFraction negative (Nat.ofDigitChars 10 fs n) (e - fs.length) rest := by
  have hdigits := digitsOf_append hfs.all hrest
  have habsorb := absorb_digitValues hfits
  have hlen : (digitValues fs).length = fs.length := List.length_map ..
  rw [readFraction, hdigits]
  obtain ⟨c, cs, rfl⟩ := List.exists_cons_of_ne_nil hfs.ne_nil
  obtain ⟨d, ds, hds⟩ : ∃ d ds, digitValues (c :: cs) = d :: ds := ⟨_, _, rfl⟩
  rw [hds] at habsorb hlen ⊢
  simp only [habsorb, hlen, List.length_nil, Nat.sub_zero]
  rfl

theorem readExponent_eq (down : Bool) (hes : Digits es)
    (htop : Nat.ofDigitChars 10 es 0 ≤ exponentTop) (hrest : Stops rest) :
    readExponent negative n e (signedDigits down es ++ rest)
      = (realOf negative n (e + signedValue down (Nat.ofDigitChars 10 es 0))).map
          fun x => (x, rest) := by
  have hdigits := digitsOf_append hes.all fun c hc => (hrest c hc).1
  have hvalue := digitsValue_digitValues es
  have hsmall : ¬ exponentTop < Nat.ofDigitChars 10 es 0 := not_lt.2 htop
  obtain ⟨c, cs, rfl⟩ := List.exists_cons_of_ne_nil hes.ne_nil
  obtain ⟨d, ds, hds⟩ : ∃ d ds, digitValues (c :: cs) = d :: ds := ⟨_, _, rfl⟩
  rw [hds] at hdigits hvalue
  cases down with
  | false =>
    show readExponent negative n e ('+' :: (c :: cs ++ rest)) = _
    simp only [readExponent, hdigits, hvalue, if_neg hsmall]
    rfl
  | true =>
    show readExponent negative n e ('-' :: (c :: cs ++ rest)) = _
    simp only [readExponent, hdigits, hvalue, if_neg hsmall]
    rfl

theorem afterDigits_of_stops (left : List ℕ) (hrest : Stops rest) :
    afterDigits negative n left rest
      = (if left.isEmpty then Except.ok (wholeOf negative n)
        else (realOf negative n left.length).map .real).map fun x => (x, rest) := by
  unfold afterDigits
  split
  · exact absurd rfl (hrest '.' rfl).2.1
  · exact absurd rfl (hrest 'e' rfl).2.2.1
  · exact absurd rfl (hrest 'E' rfl).2.2.2
  · split
    · rfl
    · cases realOf negative n left.length <;> rfl

theorem afterFraction_of_stops (hrest : Stops rest) :
    afterFraction negative n e rest = (realOf negative n e).map fun x => (x, rest) := by
  cases rest with
  | nil => rfl
  | cons c cs =>
    obtain ⟨-, -, he, hE⟩ := hrest c rfl
    unfold afterFraction
    split
    · next h => exact absurd (List.cons.inj h).1 he
    · next h => exact absurd (List.cons.inj h).1 hE
    · rfl

theorem head_not_digit (c : Char) (hc : isDigit c = false) (cs : List Char) :
    ∀ d, (c :: cs).head? = some d → isDigit d = false := by
  rintro d ⟨rfl⟩
  exact hc

/-- A numeral names what it is read as. -/
theorem Numeral.readNumber_append (h : Numeral cs n e) (hfits : n ≤ significandTop)
    (hrest : Stops rest) :
    readNumber negative (cs ++ rest)
      = (realOf negative n e).map fun x => (.real x, rest) := by
  cases h with
  | @fraction ws fs hws hfs =>
    rw [Nat.ofDigitChars_append] at hfits ⊢
    have hwhole := (le_ofDigitChars fs _).trans hfits
    have hpoint := head_not_digit '.' rfl (fs ++ rest)
    rw [List.append_assoc, List.cons_append, readNumber_eq negative hws hwhole hpoint]
    show (readFraction negative _ 0 (fs ++ rest)).map _ = _
    rw [readFraction_eq negative hfs hfits fun c hc => (hrest c hc).1,
      afterFraction_of_stops negative hrest, zero_sub]
    cases realOf negative _ _ <;> rfl
  | @exponent ws es hws hes down htop =>
    have hletter := head_not_digit 'e' rfl (signedDigits down es ++ rest)
    rw [List.append_assoc, List.cons_append, readNumber_eq negative hws hfits hletter]
    show (readExponent negative _ 0 (signedDigits down es ++ rest)).map _ = _
    rw [readExponent_eq negative down hes htop hrest, zero_add]
    cases realOf negative _ _ <;> rfl
  | @both ws fs es hws hfs hes down htop =>
    rw [Nat.ofDigitChars_append] at hfits ⊢
    have hwhole := (le_ofDigitChars fs _).trans hfits
    have hpoint := head_not_digit '.' rfl (fs ++ 'e' :: signedDigits down es ++ rest)
    have hletter := head_not_digit 'e' rfl (signedDigits down es ++ rest)
    rw [List.append_assoc, List.cons_append, readNumber_eq negative hws hwhole hpoint]
    show (readFraction negative _ 0 (fs ++ 'e' :: signedDigits down es ++ rest)).map _ = _
    rw [List.append_assoc, List.cons_append, readFraction_eq negative hfs hfits hletter]
    show (readExponent negative _ _ (signedDigits down es ++ rest)).map _ = _
    rw [readExponent_eq negative down hes htop hrest, zero_sub]
    cases realOf negative _ _ <;> rfl

theorem readNumber_whole (hws : WholePart ws) (hfits : Nat.ofDigitChars 10 ws 0 ≤ significandTop)
    (hrest : Stops rest) :
    readNumber negative (ws ++ rest)
      = .ok (wholeOf negative (Nat.ofDigitChars 10 ws 0), rest) := by
  rw [readNumber_eq_afterDigits negative hws fun c hc => (hrest c hc).1,
    absorb_digitValues hfits, afterDigits_of_stops negative [] hrest]
  rfl

end

/-! ## Spelled decimals -/

theorem WholePart.of_head {cs : List Char} (h : Digits cs) (hhead : cs.head? ≠ some '0') :
    WholePart cs :=
  ⟨h, fun h' => absurd h' hhead⟩

theorem isDigit_of_mem_zeros {c : Char} {j : ℕ} (h : c ∈ List.replicate j '0') :
    isDigit c = true := by
  rw [List.eq_of_mem_replicate h]
  rfl

theorem Digits.append_zeros {cs : List Char} (h : Digits cs) (j : ℕ) :
    Digits (cs ++ List.replicate j '0') :=
  ⟨List.forall_mem_append.2 ⟨h.all, fun _ => isDigit_of_mem_zeros⟩,
    List.append_ne_nil_of_left_ne_nil h.ne_nil _⟩

theorem Digits.zeros_append {cs : List Char} (h : Digits cs) (j : ℕ) :
    Digits (List.replicate j '0' ++ cs) :=
  ⟨List.forall_mem_append.2 ⟨fun _ => isDigit_of_mem_zeros, h.all⟩,
    List.append_ne_nil_of_right_ne_nil _ h.ne_nil⟩

theorem wholePart_zero : WholePart ['0'] := wholePart_toDigits 0

theorem ofDigitChars_zeros (n j : ℕ) :
    Nat.ofDigitChars 10 (Nat.toDigits 10 n ++ List.replicate j '0') 0 = n * 10 ^ j := by
  rw [Nat.ofDigitChars_append, Nat.ofDigitChars_ten_toDigits, Nat.ofDigitChars_replicate_zero,
    Nat.mul_comm]

section

variable {n : ℕ}

/-- A whole number ends in a point and a zero. -/
theorem numeral_pointZero (hn : 0 < n) (j : ℕ) :
    Numeral (Nat.toDigits 10 n ++ List.replicate j '0' ++ ['.', '0']) (n * 10 ^ (j + 1)) (-1) := by
  have hdigits := digits_toDigits n
  have hhead : (Nat.toDigits 10 n ++ List.replicate j '0').head? ≠ some '0' := by
    rw [List.head?_append_of_ne_nil _ hdigits.ne_nil]
    exact head_toDigits hn
  have h := Numeral.fraction (.of_head (hdigits.append_zeros j) hhead) wholePart_zero.toDigits
  rwa [List.append_assoc _ _ ['0'], ← List.replicate_succ', ofDigitChars_zeros] at h

/-- A number below a tenth has zeros behind the point. -/
theorem numeral_below {j : ℕ} (hj : (Nat.toDigits 10 n).length ≤ j) :
    Numeral ('0' :: '.' :: List.replicate (j - (Nat.toDigits 10 n).length) '0' ++ Nat.toDigits 10 n)
      n (-j) := by
  have hdigits := digits_toDigits n
  have h := Numeral.fraction wholePart_zero
    (hdigits.zeros_append (j - (Nat.toDigits 10 n).length))
  have hvalue : Nat.ofDigitChars 10 (['0'] ++ (List.replicate (j - (Nat.toDigits 10 n).length) '0'
      ++ Nat.toDigits 10 n)) 0 = n := by
    rw [← List.append_assoc, ← List.replicate_one, List.replicate_append_replicate,
      Nat.ofDigitChars_append, Nat.ofDigitChars_replicate_zero, Nat.mul_zero,
      Nat.ofDigitChars_ten_toDigits]
  rwa [hvalue, List.length_append, List.length_replicate, Nat.sub_add_cancel hj] at h

/-- The digits of a number stand on both sides of its point. -/
theorem numeral_split (hn : 0 < n) {w : ℕ} (hw : 0 < w) (hlt : w < (Nat.toDigits 10 n).length) :
    Numeral ((Nat.toDigits 10 n).take w ++ '.' :: (Nat.toDigits 10 n).drop w)
      n (-((Nat.toDigits 10 n).length - w : ℕ)) := by
  have hdigits := digits_toDigits n
  have htake : Digits ((Nat.toDigits 10 n).take w) :=
    ⟨fun c hc => hdigits.all c (List.mem_of_mem_take hc),
      List.ne_nil_of_length_pos (by rw [List.length_take]; omega)⟩
  have hdrop : Digits ((Nat.toDigits 10 n).drop w) :=
    ⟨fun c hc => hdigits.all c (List.mem_of_mem_drop hc),
      List.ne_nil_of_length_pos (by rw [List.length_drop]; omega)⟩
  have hhead : ((Nat.toDigits 10 n).take w).head? ≠ some '0' := by
    rw [List.head?_take, if_neg hw.ne']
    exact head_toDigits hn
  have h := Numeral.fraction (.of_head htake hhead) hdrop
  rwa [List.take_append_drop, Nat.ofDigitChars_ten_toDigits, List.length_drop] at h

/-- The sign and the digits of a written exponent. -/
theorem signedDigits_eq (k : ℤ) :
    (if k < 0 then ['-'] else ['+']) ++ (toString k.natAbs).toList
      = signedDigits (decide (k < 0)) (Nat.toDigits 10 k.natAbs) := by
  rw [Nat.toString_eq_repr, Nat.toList_repr, signedDigits]
  by_cases hk : k < 0 <;> simp [hk]

theorem signedValue_natAbs (k : ℤ) : signedValue (decide (k < 0)) k.natAbs = k := by
  by_cases hk : k < 0
  · rw [decide_eq_true hk, signedValue, if_pos rfl]
    omega
  · rw [decide_eq_false hk, signedValue, if_neg Bool.false_ne_true]
    omega

theorem wholePart_singleton {c : Char} (hc : isDigit c = true) : WholePart [c] :=
  ⟨⟨fun _ h => List.mem_singleton.1 h ▸ hc, List.cons_ne_nil _ _⟩, fun _ => rfl⟩

/-- With an exponent, one digit stands before the point. -/
theorem numeral_scientific {cs : List Char} (hcs : Digits cs) (k : ℤ)
    (htop : (Decimal.leading cs k).natAbs ≤ exponentTop) :
    Numeral (Decimal.spellScientific true cs k) (Nat.ofDigitChars 10 cs 0) k := by
  have hes := digits_toDigits (Decimal.leading cs k).natAbs
  have hvalue : Nat.ofDigitChars 10 (Nat.toDigits 10 (Decimal.leading cs k).natAbs) 0
      = (Decimal.leading cs k).natAbs := Nat.ofDigitChars_ten_toDigits
  have hexp := signedValue_natAbs (Decimal.leading cs k)
  have hsign := signedDigits_eq (Decimal.leading cs k)
  rw [← hvalue] at htop
  cases cs with
  | nil => exact absurd rfl hcs.ne_nil
  | cons c cs =>
    have hc := wholePart_singleton (hcs.all c (List.mem_cons_self ..))
    cases cs with
    | nil =>
      have h := Numeral.exponent hc hes (decide (Decimal.leading [c] k < 0)) htop
      have hk : Decimal.leading [c] k = k := add_sub_cancel_right k 1
      rw [hvalue, hexp.trans hk, ← hsign] at h
      exact h
    | cons c' cs =>
      have hfs : Digits (c' :: cs) :=
        ⟨fun d hd => hcs.all d (List.mem_cons_of_mem _ hd), List.cons_ne_nil _ _⟩
      have h := Numeral.both hc hfs hes (decide (Decimal.leading (c :: c' :: cs) k < 0)) htop
      have hk : -((c' :: cs).length : ℤ) + Decimal.leading (c :: c' :: cs) k = k := by
        simp only [Decimal.leading, List.length_cons]
        omega
      rw [hvalue, hexp, hk, ← hsign] at h
      have hspell : Decimal.spellScientific true (c :: c' :: cs) k
          = [c] ++ '.' :: ((c' :: cs) ++ 'e' ::
              ((if Decimal.leading (c :: c' :: cs) k < 0 then ['-'] else ['+'])
                ++ (toString (Decimal.leading (c :: c' :: cs) k).natAbs).toList)) :=
        List.append_assoc (c :: '.' :: c' :: cs) ('e' :: _) _
      rwa [hspell]

end

section

variable {d : Decimal}

/-- Without an exponent a decimal names itself, or ten times itself in tenths. -/
theorem exists_numeral_plain (hpos : 0 < d.digits) (hlt : d.digits < 2 ^ 53)
    (hlead : Decimal.leading (Nat.toDigits 10 d.digits) d.exponent ≤ 12) :
    ∃ n k, Decimal.Form d n k ∧ n < 2 ^ 53 ∧
      Numeral (Decimal.spellPlain true (Nat.toDigits 10 d.digits) d.exponent) n k := by
  have hlen := Nat.length_toDigits_pos (b := 10) (n := d.digits)
  have hpow : d.digits < 10 ^ (Nat.toDigits 10 d.digits).length :=
    (Nat.length_toDigits_le_iff (by decide) hlen).1 le_rfl
  rw [Decimal.leading] at hlead
  unfold Decimal.spellPlain
  by_cases hnonneg : 0 ≤ d.exponent
  · rw [if_pos hnonneg, if_pos rfl]
    have hsucc : d.exponent.toNat + 1 = (d.exponent + 1).toNat := by omega
    have hsmall : d.digits * 10 ^ (d.exponent + 1).toNat < 2 ^ 53 :=
      calc d.digits * 10 ^ (d.exponent + 1).toNat
          < 10 ^ (Nat.toDigits 10 d.digits).length * 10 ^ (d.exponent + 1).toNat := by gcongr
        _ = 10 ^ ((Nat.toDigits 10 d.digits).length + (d.exponent + 1).toNat) :=
            (Nat.pow_add ..).symm
        _ ≤ 10 ^ 14 := Nat.pow_le_pow_right (by decide) (by omega)
        _ < 2 ^ 53 := by decide
    have h := numeral_pointZero hpos d.exponent.toNat
    rw [hsucc] at h
    exact ⟨_, _, .pointZero hnonneg hsmall, hsmall, h⟩
  · rw [if_neg hnonneg]
    refine ⟨_, _, .own, hlt, ?_⟩
    by_cases hwhole : (Nat.toDigits 10 d.digits).length - (-d.exponent).toNat = 0
    · have h := numeral_below (n := d.digits) (j := (-d.exponent).toNat) (by omega)
      have hk : (-((-d.exponent).toNat : ℤ)) = d.exponent := by omega
      rw [hk] at h
      rwa [if_pos hwhole]
    · have h := numeral_split (n := d.digits) hpos
        (w := (Nat.toDigits 10 d.digits).length - (-d.exponent).toNat) (by omega) (by omega)
      have hk : -(((Nat.toDigits 10 d.digits).length
          - ((Nat.toDigits 10 d.digits).length - (-d.exponent).toNat) : ℕ) : ℤ) = d.exponent := by
        omega
      rw [hk] at h
      rwa [if_neg hwhole]

/-- A spelled decimal names itself in one of its two forms. -/
theorem exists_numeral (hpos : 0 < d.digits) (hlt : d.digits < 2 ^ 53)
    (hexp : d.exponent.natAbs ≤ 45) :
    ∃ n k, Decimal.Form d n k ∧ n < 2 ^ 53 ∧
      Numeral (Decimal.Layout.document.spell d) n k := by
  have hdigits := digits_toDigits d.digits
  rw [Decimal.Layout.spell, Nat.toString_eq_repr, Nat.toList_repr]
  by_cases hplain : -6 ≤ Decimal.leading (Nat.toDigits 10 d.digits) d.exponent ∧
      Decimal.leading (Nat.toDigits 10 d.digits) d.exponent ≤ 12
  · show ∃ n k, _ ∧ _ ∧ Numeral (if decide _ then Decimal.spellPlain _ _ _ else _) n k
    rw [if_pos (decide_eq_true hplain)]
    exact exists_numeral_plain hpos hlt hplain.2
  · show ∃ n k, _ ∧ _ ∧ Numeral (if decide _ then _ else Decimal.spellScientific _ _ _) n k
    have hlen : (Nat.toDigits 10 d.digits).length ≤ 16 :=
      (Nat.length_toDigits_le_iff (by decide) (by decide)).2 (hlt.trans (by decide))
    have htop : (Decimal.leading (Nat.toDigits 10 d.digits) d.exponent).natAbs ≤ exponentTop := by
      simp only [Decimal.leading, exponentTop]
      omega
    have h := numeral_scientific hdigits d.exponent htop
    rw [Nat.ofDigitChars_ten_toDigits] at h
    rw [if_neg (mt of_decide_eq_true hplain)]
    exact ⟨_, _, .own, hlt, h⟩

end

/-! ## Values -/

theorem Numeral.head {cs : List Char} {n : ℕ} {k : ℤ} (h : Numeral cs n k) :
    ∃ c rest, cs = c :: rest ∧ isDigit c = true := by
  obtain ⟨ws, after, rfl, hws⟩ : ∃ ws after, cs = ws ++ after ∧ Digits ws := by
    cases h with
    | fraction hws hfs => exact ⟨_, _, rfl, hws.toDigits⟩
    | exponent hws hes => exact ⟨_, _, rfl, hws.toDigits⟩
    | both hws hfs hes => exact ⟨_, _, rfl, hws.toDigits⟩
  obtain ⟨c, ws, rfl⟩ := List.exists_cons_of_ne_nil hws.ne_nil
  exact ⟨c, ws ++ after, rfl, hws.all c (List.mem_cons_self ..)⟩

theorem ne_of_isDigit {c d : Char} (hc : isDigit c = true) (hd : isDigit d = false) : c ≠ d := by
  rintro rfl
  rw [hc] at hd
  cases hd

theorem isBlank_eq_false {c : Char} (hc : isDigit c = true) : isBlank c = false := by
  have hspace : c ≠ ' ' := ne_of_isDigit hc rfl
  have hline : c ≠ '\n' := ne_of_isDigit hc rfl
  have htab : c ≠ '\t' := ne_of_isDigit hc rfl
  have hreturn : c ≠ '\r' := ne_of_isDigit hc rfl
  simp [isBlank, hspace, hline, htab, hreturn]

theorem skipBlanks_cons {c : Char} (hc : isBlank c = false) (cs : List Char) :
    skipBlanks (c :: cs) = c :: cs := by
  rw [skipBlanks, List.dropWhile_cons, hc, if_neg Bool.false_ne_true]

section

variable {c : Char} {cs rest : List Char} {n : ℕ} {k : ℤ}

/-- A number without a sign starts with a digit. -/
theorem readAnyNumber_digit (name : String) (hc : isDigit c = true) :
    readAnyNumber name (c :: cs) = readNumber false (c :: cs) := by
  have hminus : c ≠ '-' := ne_of_isDigit hc rfl
  unfold readAnyNumber
  rw [skipBlanks_cons (isBlank_eq_false hc)]
  split
  · next h => cases h
  · next h => exact absurd (List.cons.inj h).1 hminus
  · next h =>
    obtain ⟨rfl, rfl⟩ := List.cons.inj h
    rw [if_pos hc]

/-- A whole number is read as it was written. -/
theorem readInteger_whole {n : ℕ} (hn : n ≤ signedTop) (hrest : Stops rest) :
    readInteger (Document.whole n ++ rest) = .ok ((n : ℤ), rest) := by
  have hws := wholePart_toDigits n
  have hvalue : Nat.ofDigitChars 10 (Nat.toDigits 10 n) 0 = n := Nat.ofDigitChars_ten_toDigits
  have hfits : n ≤ significandTop := hn.trans (by decide)
  have hread := readNumber_whole false hws (by rwa [hvalue]) hrest
  rw [hvalue] at hread
  obtain ⟨c, cs, hcs⟩ := List.exists_cons_of_ne_nil hws.ne_nil
  have hc : isDigit c = true := hws.all c (by rw [hcs]; exact List.mem_cons_self ..)
  rw [readInteger, Document.whole, Nat.toString_eq_repr, Nat.toList_repr, hcs, List.cons_append,
    readAnyNumber_digit "i64" hc, ← List.cons_append, ← hcs, hread]
  have hsmall : ((n : ℕ) : ℤ) ≤ signedTop := by exact_mod_cast hn
  exact if_pos hsmall

theorem Numeral.readAnyNumber_append (h : Numeral cs n k) (hfits : n ≤ significandTop)
    (hrest : Stops rest) (name : String) (negative : Bool) :
    readAnyNumber name (Decimal.signMark (Binary.signOf negative) ++ cs ++ rest)
      = (realOf negative n k).map fun x => (.real x, rest) := by
  rw [← h.readNumber_append negative hfits hrest]
  cases negative with
  | true => rfl
  | false =>
    obtain ⟨c, cs, rfl, hc⟩ := h.head
    exact readAnyNumber_digit name hc

theorem Numeral.readSingle_append (h : Numeral cs n k) (hfits : n ≤ significandTop)
    (hrest : Stops rest) {negative : Bool} {x : Float} {y : Float32}
    (hx : realOf negative n k = .ok x) (hy : Binary32.narrow x = y) :
    readSingle (Decimal.signMark (Binary.signOf negative) ++ cs ++ rest) = .ok (y, rest) := by
  rw [readSingle, h.readAnyNumber_append hfits hrest, hx, ← hy]
  rfl

/-- A zero is read with its sign. -/
theorem narrow_realOf_zero (negative : Bool) :
    ∃ x, realOf negative 0 (-1) = .ok x ∧
      Binary32.narrow x = .ofModel (.pack (.zero (Binary.signOf negative))) := by
  have h : (realOf negative 0 (-1)).toOption.map (fun x => (Binary32.narrow x).toModel)
      = some (.pack (.zero (Binary.signOf negative))) := by
    cases negative <;> decide +kernel
  obtain ⟨x, hx, hzero⟩ := Option.map_eq_some_iff.1 h
  refine ⟨x, ?_, congrArg Float32.ofModel hzero⟩
  cases hread : realOf negative 0 (-1) with
  | error fault => rw [hread] at hx; cases hx
  | ok y => rw [hread] at hx; cases hx; rfl

theorem exists_signOf (s : Sign) :
    ∃ negative, Binary.signOf negative = s := by
  cases s with
  | positive => exact ⟨false, rfl⟩
  | negative => exact ⟨true, rfl⟩

/-- A finite number is read as it was written. -/
theorem readSingle_number {x : Float32} (hx : x.isFinite = true) (hrest : Stops rest) :
    readSingle (Document.number x ++ rest) = .ok (x, rest) := by
  have htop : (2 : ℕ) ^ 53 ≤ significandTop := by decide
  have hback := Binary.ofModel_pack_unpack x
  rw [Document.number, if_pos hx, Decimal.Layout.spell32]
  replace hx : x.toModel.unpack.isFinite = true := hx
  cases hu : x.toModel.unpack with
  | notANumber => rw [hu] at hx; cases hx
  | infinity s => rw [hu] at hx; cases hx
  | zero s =>
    rw [hu] at hback
    obtain ⟨negative, rfl⟩ := exists_signOf s
    obtain ⟨y, hy, hnarrow⟩ := narrow_realOf_zero negative
    have hzero : Numeral ['0', '.', '0'] 0 (-1) :=
      Numeral.fraction wholePart_zero wholePart_zero.toDigits
    exact hzero.readSingle_append (Nat.zero_le _) hrest hy (hnarrow.trans hback)
  | finite s m e hm =>
    rw [hu] at hback
    obtain ⟨negative, rfl⟩ := exists_signOf s
    obtain ⟨hc, he⟩ := Binary.canonical_of_unpack (by decide) hu
    obtain ⟨d, hd, hlow, hhigh, hlt, hfound⟩ := Decimal.shortest_binary32 hc he
    have hpos := Decimal.digits_pos_of_roundsTo (Decimal.roundsTo_of_nearest? hc hfound)
    obtain ⟨n, k, hform, hn, hnum⟩ := exists_numeral hpos hlt (by omega)
    rw [← hd] at hform hnum
    obtain ⟨y, hy, hnarrow⟩ := Decimal.narrow_realOf negative hc he hform
    exact hnum.readSingle_append (by omega) hrest hy (hnarrow.trans hback)

end

end Relief.Json
