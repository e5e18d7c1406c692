import Relief.Proofs.Numerals
import Relief.Json.Value

set_option autoImplicit false

/-! # Grammar: the texts of values

Which texts are values is said here by rules of their own (`IsValue`): words, numbers, strings,
lists and objects, with blanks wherever they may stand. What follows a value must not go on with a
number (`Stops`), which no comma, bracket, blank or end does. Passing over a value takes its text
and nothing else, however deep it is nested (`IsPart.skipValue_append`). -/

namespace Relief.Json

/-! ## Blanks -/

/-- Whether characters are blanks. -/
def Blanks (cs : List Char) : Prop := ∀ c ∈ cs, isBlank c = true

theorem blanks_nil : Blanks [] := nofun

section

variable {bs : List Char} (h : Blanks bs) (cs : List Char)

include h

theorem Blanks.skipBlanks_append : skipBlanks (bs ++ cs) = skipBlanks cs :=
  List.dropWhile_append_of_pos h

end

theorem skipBlanks_quote (cs : List Char) : skipBlanks ('"' :: cs) = '"' :: cs :=
  skipBlanks_cons rfl cs

theorem skipBlanks_colon (cs : List Char) : skipBlanks (':' :: cs) = ':' :: cs :=
  skipBlanks_cons rfl cs

theorem skipBlanks_comma (cs : List Char) : skipBlanks (',' :: cs) = ',' :: cs :=
  skipBlanks_cons rfl cs

theorem skipBlanks_opening (cs : List Char) : skipBlanks ('\x7b' :: cs) = '\x7b' :: cs :=
  skipBlanks_cons rfl cs

theorem skipBlanks_closing (cs : List Char) : skipBlanks ('\x7d' :: cs) = '\x7d' :: cs :=
  skipBlanks_cons rfl cs

theorem skipBlanks_skipBlanks (cs : List Char) : skipBlanks (skipBlanks cs) = skipBlanks cs :=
  List.dropWhile_idempotent ..

/-! ## Strings -/

/-- The texts between the quotes of strings. -/
inductive IsQuoted : List Char → Prop
  | nil : IsQuoted []
  | plain {c : Char} {cs : List Char} (hcontrol : ¬ c < ' ') (hquote : c ≠ '"')
    (hback : c ≠ '\\') (h : IsQuoted cs) : IsQuoted (c :: cs)
  | escape {e c : Char} {cs : List Char} (he : simpleEscape? e = some c) (h : IsQuoted cs) :
    IsQuoted ('\\' :: e :: cs)
  | code {a b c d : Char} {n : ℕ} {cs : List Char} (hn : hexValue4? a b c d = some n)
    (h : IsQuoted cs) : IsQuoted ('\\' :: 'u' :: a :: b :: c :: d :: cs)

/-- No letter of an escape is the one before four digits. -/
theorem ne_u_of_simpleEscape? {e c : Char} (h : simpleEscape? e = some c) : e ≠ 'u' := by
  rintro rfl
  cases h

theorem IsQuoted.skipString_append {cs : List Char} (h : IsQuoted cs) (rest : List Char) :
    skipString (cs ++ '"' :: rest) = .ok rest := by
  induction h with
  | nil => rfl
  | plain hcontrol hquote hback h ih =>
    rw [List.cons_append, skipString, if_neg hcontrol, ih]
    · exact hquote
    -- every other pattern starts with a backslash
    all_goals
      intros
      exact hback (by assumption)
  | escape he h ih =>
    have hu := ne_u_of_simpleEscape? he
    rw [List.cons_append, List.cons_append, skipString, he]
    · exact ih
    all_goals
      intros
      exact hu (by assumption)
  | code hn h ih =>
    show skipString ('\\' :: 'u' :: _ :: _ :: _ :: _ :: (_ ++ '"' :: rest)) = _
    rw [skipString, hn]
    exact ih

/-- Whether a character stands for itself between quotes. -/
def isPlain (c : Char) : Bool := !decide (c < ' ') && c != '"' && c != '\\'

theorem isQuoted_of_plain {cs : List Char} (h : cs.all isPlain = true) : IsQuoted cs := by
  induction cs with
  | nil => exact .nil
  | cons c cs ih =>
    rw [List.all_cons, Bool.and_eq_true] at h
    obtain ⟨hc, hcs⟩ := h
    simp only [isPlain, Bool.and_eq_true, Bool.not_eq_true', decide_eq_false_iff_not,
      bne_iff_ne] at hc
    exact .plain hc.1.1 hc.1.2 hc.2 (ih hcs)

/-! ## Numbers -/

/-- A fraction, which may be missing. -/
inductive IsFraction : List Char → Prop
  | none : IsFraction []
  | some {fs : List Char} (h : Digits fs) : IsFraction ('.' :: fs)

/-- The sign of an exponent, which may be missing. -/
inductive IsSign : List Char → Prop
  | none : IsSign []
  | plus : IsSign ['+']
  | minus : IsSign ['-']

/-- An exponent, which may be missing. -/
inductive IsExponent : List Char → Prop
  | none : IsExponent []
  | some {letter : Char} {sign es : List Char} (hletter : letter = 'e' ∨ letter = 'E')
    (hsign : IsSign sign) (hes : Digits es) : IsExponent (letter :: (sign ++ es))

/-- The texts of numbers without a sign. -/
inductive IsUnsigned : List Char → Prop
  | mk {ws fs es : List Char} (hws : WholePart ws) (hfs : IsFraction fs) (hes : IsExponent es) :
    IsUnsigned (ws ++ (fs ++ es))

/-- The texts of numbers. -/
inductive IsNumber : List Char → Prop
  | unsigned {cs : List Char} (h : IsUnsigned cs) : IsNumber cs
  | minus {cs : List Char} (h : IsUnsigned cs) : IsNumber ('-' :: cs)

section

variable {cs ws fs es sign rest : List Char}

theorem Digits.digitValues (h : Digits fs) : ∃ d ds, digitValues fs = d :: ds := by
  obtain ⟨c, cs, rfl⟩ := List.exists_cons_of_ne_nil h.ne_nil
  exact ⟨_, _, rfl⟩

theorem Stops.digit (h : Stops rest) : ∀ c, rest.head? = some c → isDigit c = false :=
  fun c hc => (h c hc).1

theorem skipExponent_append (hsign : IsSign sign) (hes : Digits es) (hrest : Stops rest) :
    skipExponent (sign ++ (es ++ rest)) = .ok rest := by
  have hdigits := digitsOf_append hes.all hrest.digit
  obtain ⟨d, ds, hds⟩ := hes.digitValues
  rw [hds] at hdigits
  cases hsign with
  | plus =>
    show skipExponent ('+' :: (es ++ rest)) = _
    simp only [skipExponent, hdigits]
  | minus =>
    show skipExponent ('-' :: (es ++ rest)) = _
    simp only [skipExponent, hdigits]
  | none =>
    obtain ⟨c, cs, rfl⟩ := List.exists_cons_of_ne_nil hes.ne_nil
    have hc := hes.all c (List.mem_cons_self ..)
    have hplus : c ≠ '+' := ne_of_isDigit hc rfl
    have hminus : c ≠ '-' := ne_of_isDigit hc rfl
    show skipExponent (c :: cs ++ rest) = _
    unfold skipExponent
    split
    · next h => exact absurd (List.cons.inj h).1 hplus
    · next h => exact absurd (List.cons.inj h).1 hminus
    · simp only [hdigits]

/-- What follows the whole part of a number goes on with no digit. -/
theorem not_digit_of_isFraction (hfs : IsFraction fs) (hes : IsExponent es) (hrest : Stops rest) :
    ∀ c, (fs ++ (es ++ rest)).head? = some c → isDigit c = false := by
  cases hfs with
  | some => exact head_not_digit '.' rfl _
  | none =>
    cases hes with
    | none => exact hrest.digit
    | some hletter => obtain rfl | rfl := hletter <;> exact head_not_digit _ rfl _

theorem not_digit_of_isExponent (hes : IsExponent es) (hrest : Stops rest) :
    ∀ c, (es ++ rest).head? = some c → isDigit c = false :=
  not_digit_of_isFraction .none hes hrest

/-- Passes over a fraction and an exponent, either of which may be missing. -/
def skipAfterWhole : List Char → Except Fault (List Char)
  | '.' :: after =>
    match digitsOf after with
    | ([], _) => .error .invalidNumber
    | (_, 'e' :: rest) | (_, 'E' :: rest) => skipExponent rest
    | (_, rest) => .ok rest
  | 'e' :: rest | 'E' :: rest => skipExponent rest
  | rest => .ok rest

theorem skipAfterWhole_of_ne (hpoint : ∀ cs, rest ≠ '.' :: cs) (he : ∀ cs, rest ≠ 'e' :: cs)
    (hE : ∀ cs, rest ≠ 'E' :: cs) : skipAfterWhole rest = .ok rest := by
  unfold skipAfterWhole
  split
  · exact absurd rfl (hpoint _)
  · exact absurd rfl (he _)
  · exact absurd rfl (hE _)
  · rfl

theorem skipNumber_eq (hws : WholePart ws)
    (hrest : ∀ c, rest.head? = some c → isDigit c = false) :
    skipNumber (ws ++ rest) = skipAfterWhole rest := by
  obtain ⟨d, ds, hds, hzero⟩ := hws.shape
  rw [skipNumber, digitsOf_append hws.all hrest, hds]
  split
  · next h => cases h
  · next h =>
    obtain ⟨hlead, -⟩ := Prod.mk.inj h
    obtain ⟨rfl, hmore⟩ := List.cons.inj hlead
    cases (hzero rfl).symm.trans hmore
  · next h =>
    obtain ⟨-, rfl⟩ := Prod.mk.inj h
    rfl
  · next h =>
    obtain ⟨-, rfl⟩ := Prod.mk.inj h
    rfl
  · next h =>
    obtain ⟨-, rfl⟩ := Prod.mk.inj h
    rfl
  · next hpoint he hE h =>
    obtain ⟨-, rfl⟩ := Prod.mk.inj h
    exact (skipAfterWhole_of_ne hpoint he hE).symm

theorem skipAfterWhole_fraction (hfs : Digits fs) (hes : IsExponent es) (hrest : Stops rest) :
    skipAfterWhole ('.' :: (fs ++ (es ++ rest))) = .ok rest := by
  obtain ⟨d, ds, hds⟩ := hfs.digitValues
  rw [skipAfterWhole, digitsOf_append hfs.all (not_digit_of_isExponent hes hrest), hds]
  cases hes with
  | some hletter hsign hes =>
    rw [List.cons_append, List.append_assoc]
    obtain rfl | rfl := hletter <;> exact skipExponent_append hsign hes hrest
  | none =>
    rw [List.nil_append]
    split
    · next h => cases h
    · next h =>
      obtain ⟨-, rfl⟩ := Prod.mk.inj h
      exact absurd rfl (hrest 'e' rfl).2.2.1
    · next h =>
      obtain ⟨-, rfl⟩ := Prod.mk.inj h
      exact absurd rfl (hrest 'E' rfl).2.2.2
    · next h =>
      obtain ⟨-, rfl⟩ := Prod.mk.inj h
      rfl

theorem skipAfterWhole_exponent (hes : IsExponent es) (hrest : Stops rest) :
    skipAfterWhole (es ++ rest) = .ok rest := by
  cases hes with
  | some hletter hsign hes =>
    rw [List.cons_append, List.append_assoc]
    obtain rfl | rfl := hletter <;> exact skipExponent_append hsign hes hrest
  | none =>
    rw [List.nil_append]
    refine skipAfterWhole_of_ne ?_ ?_ ?_
    · rintro cs rfl
      exact (hrest '.' rfl).2.1 rfl
    · rintro cs rfl
      exact (hrest 'e' rfl).2.2.1 rfl
    · rintro cs rfl
      exact (hrest 'E' rfl).2.2.2 rfl

theorem IsUnsigned.skipNumber_append (h : IsUnsigned cs) (hrest : Stops rest) :
    skipNumber (cs ++ rest) = .ok rest := by
  obtain ⟨hws, hfs, hes⟩ := h
  rw [List.append_assoc, List.append_assoc,
    skipNumber_eq hws (not_digit_of_isFraction hfs hes hrest)]
  cases hfs with
  | none => exact skipAfterWhole_exponent hes hrest
  | some hfs => exact skipAfterWhole_fraction hfs hes hrest

/-- A number without a sign starts with a digit. -/
theorem IsUnsigned.head (h : IsUnsigned cs) :
    ∃ c after, cs = c :: after ∧ isDigit c = true := by
  obtain ⟨hws, hfs, hes⟩ := h
  obtain ⟨c, ws, rfl⟩ := List.exists_cons_of_ne_nil hws.ne_nil
  exact ⟨c, _, rfl, hws.all c (List.mem_cons_self ..)⟩

end

/-! ## Values -/

/-- The bracket that opens. -/
def Nest.opening : Nest → Char
  | list => '['
  | object => '\x7b'

/-- The texts of a key and its colon, with the blanks around them. -/
inductive IsKey (raw : List Char) : List Char → Prop
  | mk {bs bs' bs'' : List Char} (hbs : Blanks bs) (hraw : IsQuoted raw) (hbs' : Blanks bs')
    (hbs'' : Blanks bs'') : IsKey raw (bs ++ '"' :: (raw ++ '"' :: (bs' ++ ':' :: bs'')))

theorem isKey_of_plain {raw : List Char} (h : raw.all isPlain = true) :
    IsKey raw ('"' :: (raw ++ ['"', ':'])) :=
  .mk blanks_nil (isQuoted_of_plain h) blanks_nil blanks_nil

/-- The texts in front of the value of an item. -/
inductive IsFront : Nest → List Char → Prop
  | list {bs : List Char} (hbs : Blanks bs) : IsFront .list bs
  | object {raw cs : List Char} (h : IsKey raw cs) : IsFront .object cs

/-- The parts of a document that have texts: a value, and the items between two brackets. -/
inductive Part where
  | value
  | items (nest : Nest)

/-- The texts of values and of items. -/
inductive IsPart : Part → List Char → Prop
  | null : IsPart .value ['n', 'u', 'l', 'l']
  | yes : IsPart .value ['t', 'r', 'u', 'e']
  | no : IsPart .value ['f', 'a', 'l', 's', 'e']
  | number {cs : List Char} (h : IsNumber cs) : IsPart .value cs
  | string {cs : List Char} (h : IsQuoted cs) : IsPart .value ('"' :: (cs ++ ['"']))
  | empty {bs : List Char} (nest : Nest) (h : Blanks bs) :
    IsPart .value (nest.opening :: (bs ++ [nest.close]))
  | nested {cs : List Char} {nest : Nest} (h : IsPart (.items nest) cs) :
    IsPart .value (nest.opening :: (cs ++ [nest.close]))
  | last {front cs bs : List Char} {nest : Nest} (hfront : IsFront nest front)
    (h : IsPart .value cs) (hbs : Blanks bs) : IsPart (.items nest) (front ++ (cs ++ bs))
  | next {front cs bs more : List Char} {nest : Nest} (hfront : IsFront nest front)
    (h : IsPart .value cs) (hbs : Blanks bs) (hmore : IsPart (.items nest) more) :
    IsPart (.items nest) (front ++ (cs ++ (bs ++ ',' :: more)))

/-- The texts of values, without blanks around them. -/
abbrev IsValue (cs : List Char) : Prop := IsPart .value cs

section

variable {raw front cs bs rest : List Char} {nest : Nest} {fuel : ℕ}

theorem skipKey_append (h : IsKey raw front) (cs : List Char) :
    ∃ bs, Blanks bs ∧ skipKey (front ++ cs) = .ok (bs ++ cs) := by
  obtain ⟨hbs, hraw, hbs', hbs''⟩ := h
  refine ⟨_, hbs'', ?_⟩
  simp only [List.append_assoc, List.cons_append]
  rw [skipKey, hbs.skipBlanks_append, skipBlanks_quote]
  simp only [hraw.skipString_append, hbs'.skipBlanks_append, skipBlanks_colon]

theorem skipValueWith_blanks (hbs : Blanks bs) (cs : List Char) :
    skipValueWith fuel (bs ++ cs) = skipValueWith fuel cs := by
  cases fuel with
  | zero => rfl
  | succ fuel => rw [skipValueWith, skipValueWith, hbs.skipBlanks_append]

/-- Passes over what follows the value of an item: a comma and more items, or a bracket. -/
def skipMore (fuel : ℕ) (nest : Nest) (cs : List Char) : Except Fault (List Char) :=
  match skipBlanks cs with
  | [] => .error nest.earlyEnd
  | c :: rest =>
    if c = ',' then skipItem fuel nest rest
    else if c = nest.close then .ok rest
    else .error nest.expectedCommaOrEnd

theorem skipItem_eq (hfront : IsFront nest front) (h : skipValueWith fuel cs = .ok rest) :
    skipItem (fuel + 1) nest (front ++ cs) = skipMore fuel nest rest := by
  cases hfront with
  | list hbs =>
    rw [skipItem]
    simp only [skipValueWith_blanks hbs, h]
    rfl
  | object hkey =>
    obtain ⟨bs, hbs, hskip⟩ := skipKey_append hkey cs
    rw [skipItem]
    simp only [hskip, skipValueWith_blanks hbs, h]
    rfl

theorem skipMore_comma (hbs : Blanks bs) :
    skipMore fuel nest (bs ++ ',' :: rest) = skipItem fuel nest rest := by
  rw [skipMore, hbs.skipBlanks_append]
  rfl

theorem skipMore_close (hbs : Blanks bs) :
    skipMore fuel nest (bs ++ nest.close :: rest) = .ok rest := by
  rw [skipMore, hbs.skipBlanks_append]
  cases nest <;> rfl

theorem Blanks.stops (hbs : Blanks bs) : Stops bs := by
  intro c hc
  have hblank := hbs c (List.mem_of_head? hc)
  simp only [isBlank, Bool.or_eq_true, beq_iff_eq] at hblank
  obtain ((rfl | rfl) | rfl) | rfl := hblank <;> decide

/-- What may follow a value inside of brackets. -/
theorem stops_append {c : Char} (hbs : Blanks bs) (hc : Stops [c]) : Stops (bs ++ c :: rest) := by
  cases bs with
  | nil =>
    rintro d ⟨rfl⟩
    exact hc c rfl
  | cons b bs => exact fun d hd => hbs.stops d hd

theorem stops_close (nest : Nest) : Stops [nest.close] := by
  rintro c ⟨rfl⟩
  cases nest <;> decide

theorem stops_comma : Stops [','] := by
  rintro c ⟨rfl⟩
  decide

theorem stops_colon : Stops [':'] := by
  rintro c ⟨rfl⟩
  decide

/-- The first character of a value is no blank and closes nothing. -/
theorem IsPart.head (h : IsValue cs) :
    ∃ c after, cs = c :: after ∧ isBlank c = false ∧ ∀ nest : Nest, c ≠ nest.close := by
  have hdigit : ∀ c, isDigit c = true →
      isBlank c = false ∧ ∀ nest : Nest, c ≠ nest.close := by
    refine fun c hc => ⟨isBlank_eq_false hc, fun nest => ?_⟩
    cases nest <;> exact ne_of_isDigit hc rfl
  cases h with
  | null => exact ⟨_, _, rfl, rfl, fun nest => by cases nest <;> decide⟩
  | yes => exact ⟨_, _, rfl, rfl, fun nest => by cases nest <;> decide⟩
  | no => exact ⟨_, _, rfl, rfl, fun nest => by cases nest <;> decide⟩
  | string => exact ⟨_, _, rfl, rfl, fun nest => by cases nest <;> decide⟩
  | empty outer | @nested _ outer =>
    refine ⟨_, _, rfl, by cases outer <;> rfl, fun nest => ?_⟩
    cases outer <;> cases nest <;> decide
  | number h =>
    cases h with
    | minus => exact ⟨_, _, rfl, rfl, fun nest => by cases nest <;> decide⟩
    | unsigned h =>
      obtain ⟨c, after, rfl, hc⟩ := h.head
      exact ⟨c, after, rfl, hdigit c hc⟩

/-- Items do not start with the bracket that closes. -/
theorem IsFront.head (hfront : IsFront nest front) (h : IsValue cs) (rest : List Char) :
    ∃ c after, skipBlanks (front ++ (cs ++ rest)) = c :: after ∧ c ≠ nest.close := by
  cases hfront with
  | list hbs =>
    obtain ⟨c, after, rfl, hc, hclose⟩ := h.head
    rw [hbs.skipBlanks_append, List.cons_append, skipBlanks_cons hc]
    exact ⟨c, _, rfl, hclose .list⟩
  | object hkey =>
    obtain ⟨hbs, hraw, hbs', hbs''⟩ := hkey
    have hquote : isBlank '"' = false := rfl
    rw [List.append_assoc, hbs.skipBlanks_append, List.cons_append, skipBlanks_cons hquote]
    exact ⟨'"', _, rfl, by decide⟩

theorem IsPart.items_head (h : IsPart (.items nest) cs) (rest : List Char) :
    ∃ c after, skipBlanks (cs ++ rest) = c :: after ∧ c ≠ nest.close := by
  cases h with
  | last hfront h hbs =>
    rw [List.append_assoc, List.append_assoc]
    exact hfront.head h _
  | next hfront h hbs hmore =>
    rw [List.append_assoc, List.append_assoc]
    exact hfront.head h _

theorem skipItem_skipBlanks (fuel : ℕ) (cs : List Char) :
    skipItem fuel nest (skipBlanks cs) = skipItem fuel nest cs := by
  cases fuel with
  | zero => rfl
  | succ fuel =>
    have hvalue : skipValueWith fuel (skipBlanks cs) = skipValueWith fuel cs := by
      cases fuel with
      | zero => rfl
      | succ fuel => rw [skipValueWith, skipValueWith, skipBlanks_skipBlanks]
    cases nest with
    | list =>
      rw [skipItem, skipItem]
      simp only [hvalue]
    | object =>
      have hkey : skipKey (skipBlanks cs) = skipKey cs := by
        rw [skipKey, skipKey, skipBlanks_skipBlanks]
      rw [skipItem, skipItem]
      simp only [hkey]

theorem skipFirst_empty (hbs : Blanks bs) :
    skipFirst (fuel + 1) nest (bs ++ nest.close :: rest) = .ok rest := by
  rw [skipFirst, hbs.skipBlanks_append]
  cases nest <;> rfl

theorem skipFirst_items (h : IsPart (.items nest) cs) (rest : List Char) :
    skipFirst (fuel + 1) nest (cs ++ rest) = skipItem fuel nest (cs ++ rest) := by
  obtain ⟨c, after, hhead, hclose⟩ := h.items_head rest
  rw [skipFirst, hhead]
  show (if c = nest.close then _ else _) = _
  rw [if_neg hclose, ← hhead, skipItem_skipBlanks]

theorem skipValueWith_opening (nest : Nest) (fuel : ℕ) (cs : List Char) :
    skipValueWith (fuel + 1) (nest.opening :: cs) = skipFirst fuel nest cs := by
  cases nest <;> rfl

theorem skipValueWith_number (h : IsNumber cs) (hrest : Stops rest) :
    skipValueWith (fuel + 1) (cs ++ rest) = .ok rest := by
  cases h with
  | minus h =>
    exact h.skipNumber_append hrest
  | unsigned h =>
    obtain ⟨c, after, rfl, hc⟩ := h.head
    rw [← h.skipNumber_append hrest, List.cons_append, skipValueWith,
      skipBlanks_cons (isBlank_eq_false hc)]
    split
    · next h => cases h
    iterate 7
      · next h => exact absurd (List.cons.inj h).1 (ne_of_isDigit hc rfl)
    · next h =>
      obtain ⟨rfl, rfl⟩ := List.cons.inj h
      exact if_pos hc

/-- What passing over a part of a document means, with fuel for its length. -/
def Part.Passes : Part → List Char → Prop
  | .value, cs => ∀ fuel rest, 3 * cs.length ≤ fuel → Stops rest →
    skipValueWith fuel (cs ++ rest) = .ok rest
  | .items nest, cs => ∀ fuel rest, 3 * cs.length < fuel →
    skipItem fuel nest (cs ++ nest.close :: rest) = .ok rest

theorem IsPart.passes {part : Part} (h : IsPart part cs) : part.Passes cs := by
  induction h with
  | null | yes | no =>
    intro fuel rest hfuel hrest
    obtain ⟨fuel, rfl⟩ := Nat.exists_eq_add_of_le' (Nat.one_le_of_lt hfuel)
    rfl
  | number h =>
    intro fuel rest hfuel hrest
    obtain ⟨c, after, rfl, -⟩ := (IsPart.number h).head
    obtain ⟨fuel, rfl⟩ : ∃ n, fuel = n + 1 := Nat.exists_eq_add_of_le' (by
      rw [List.length_cons] at hfuel
      omega)
    exact skipValueWith_number h hrest
  | string h =>
    intro fuel rest hfuel hrest
    obtain ⟨fuel, rfl⟩ : ∃ n, fuel = n + 1 := Nat.exists_eq_add_of_le' (by
      rw [List.length_cons] at hfuel
      omega)
    rw [List.cons_append, List.append_assoc]
    exact h.skipString_append rest
  | empty nest hbs =>
    intro fuel rest hfuel hrest
    obtain ⟨fuel, rfl⟩ : ∃ n, fuel = n + 2 := Nat.exists_eq_add_of_le' (by
      rw [List.length_cons] at hfuel
      omega)
    rw [List.cons_append, List.append_assoc, skipValueWith_opening]
    exact skipFirst_empty hbs
  | nested h ih =>
    intro fuel rest hfuel hrest
    rw [List.length_cons, List.length_append, List.length_singleton] at hfuel
    obtain ⟨fuel, rfl⟩ : ∃ n, fuel = n + 2 := Nat.exists_eq_add_of_le' (by omega)
    rw [List.cons_append, List.append_assoc, skipValueWith_opening]
    exact (skipFirst_items h _).trans (ih fuel rest (by omega))
  | @last front cs bs nest hfront h hbs ih =>
    intro fuel rest hfuel
    rw [List.length_append, List.length_append] at hfuel
    obtain ⟨fuel, rfl⟩ : ∃ n, fuel = n + 1 := Nat.exists_eq_add_of_le' (by omega)
    have hvalue := ih fuel (bs ++ nest.close :: rest) (by omega)
      (stops_append hbs (stops_close nest))
    rw [List.append_assoc, List.append_assoc]
    exact (skipItem_eq hfront hvalue).trans (skipMore_close hbs)
  | @next front cs bs more nest hfront h hbs hmore ih ihmore =>
    intro fuel rest hfuel
    rw [List.length_append, List.length_append, List.length_append, List.length_cons] at hfuel
    obtain ⟨fuel, rfl⟩ : ∃ n, fuel = n + 1 := Nat.exists_eq_add_of_le' (by omega)
    have hvalue := ih fuel (bs ++ ',' :: (more ++ nest.close :: rest)) (by omega)
      (stops_append hbs stops_comma)
    rw [List.append_assoc, List.append_assoc, List.append_assoc, List.cons_append]
    exact (skipItem_eq hfront hvalue).trans ((skipMore_comma hbs).trans
      (ihmore fuel rest (by omega)))

/-- **Passing over a value takes its text** and the blanks in front of it, however deep the value is
    nested. -/
theorem IsPart.skipValue_append (h : IsValue cs) (hbs : Blanks bs) (hrest : Stops rest) :
    skipValue (bs ++ (cs ++ rest)) = .ok rest := by
  rw [skipValue, skipValueWith_blanks hbs]
  refine h.passes _ rest ?_ hrest
  rw [List.length_append, List.length_append]
  omega

end

/-! ## Objects -/

/-- A member of an object: what stands between the quotes of its key, and the text of its value. -/
abbrev Member := List Char × List Char

/-- The texts of one or more members. -/
inductive IsMembers : List Member → List Char → Prop
  | last {raw front cs bs : List Char} (hkey : IsKey raw front) (h : IsValue cs)
    (hbs : Blanks bs) : IsMembers [(raw, cs)] (front ++ (cs ++ bs))
  | next {raw front cs bs more : List Char} {members : List Member} (hkey : IsKey raw front)
    (h : IsValue cs) (hbs : Blanks bs) (hmore : IsMembers members more) :
    IsMembers ((raw, cs) :: members) (front ++ (cs ++ (bs ++ ',' :: more)))

/-- The texts of objects. -/
inductive IsObject : List Member → List Char → Prop
  | empty {bs : List Char} (hbs : Blanks bs) : IsObject [] ('\x7b' :: (bs ++ ['\x7d']))
  | members {members : List Member} {cs : List Char} (h : IsMembers members cs) :
    IsObject members ('\x7b' :: (cs ++ ['\x7d']))

section

variable {members : List Member} {raw cs : List Char}

theorem IsMembers.isPart (h : IsMembers members cs) : IsPart (.items .object) cs := by
  induction h with
  | last hkey h hbs => exact .last (.object hkey) h hbs
  | next hkey h hbs hmore ih => exact .next (.object hkey) h hbs ih

theorem IsObject.isValue (h : IsObject members cs) : IsValue cs := by
  cases h with
  | empty hbs => exact .empty .object hbs
  | members h => exact .nested h.isPart

theorem IsMembers.isValue_of_mem (h : IsMembers members cs) : ∀ m ∈ members, IsValue m.2 := by
  induction h with
  | last hkey h hbs =>
    intro m hm
    obtain rfl := List.mem_singleton.1 hm
    exact h
  | next hkey h hbs hmore ih => exact List.forall_mem_cons.2 ⟨h, ih⟩

theorem IsObject.isValue_of_mem (h : IsObject members cs) : ∀ m ∈ members, IsValue m.2 := by
  cases h with
  | empty => exact fun m hm => absurd hm List.not_mem_nil
  | members h => exact h.isValue_of_mem

theorem IsPart.exists_members {part : Part} (h : IsPart part cs) (hpart : part = .items .object) :
    ∃ members, IsMembers members cs := by
  induction h with
  | last hfront h hbs =>
    cases hpart
    cases hfront with
    | object hkey => exact ⟨_, .last hkey h hbs⟩
  | next hfront h hbs hmore ih ihmore =>
    obtain ⟨members, hmembers⟩ := ihmore hpart
    cases hpart
    cases hfront with
    | object hkey => exact ⟨_, .next hkey h hbs hmembers⟩
  | _ => cases hpart

end

end Relief.Json
