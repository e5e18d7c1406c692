import Relief.Proofs.Grammar
import Relief.Json.Record

set_option autoImplicit false

/-! # Readings: what a reader makes of a value

What a reader makes of a value depends on the text of the value alone, not on what follows it
(`Settles`). This holds of strings, where the halves of pairs belong together, of numbers, whose
digits may not all fit, and of everything that is made of them, so that each value has a reading of
its own (`own`). -/

namespace Relief.Json

/-! ## Readings -/

/-- What a reader makes of a text on its own. -/
def own {β : Type} (read : Reader β) (cs : List Char) : Option β :=
  (read cs).toOption.map Prod.fst

/-- Whether a reader takes exactly a text, or refuses it, whatever follows. -/
inductive Settles {β : Type} (read : Reader β) (cs : List Char) : Prop
  | takes (b : β) (h : ∀ rest, Stops rest → read (cs ++ rest) = .ok (b, rest))
  | refuses (h : ∀ rest, Stops rest → ∃ fault, read (cs ++ rest) = .error fault)

theorem stops_nil : Stops [] := nofun

section

variable {α β : Type} {read : Reader β} {cs rest : List Char}

theorem Settles.toOption_append (h : Settles read cs) (hrest : Stops rest) :
    (read (cs ++ rest)).toOption = (own read cs).map fun b => (b, rest) := by
  cases h with
  | takes b h =>
    have hown : read cs = .ok (b, []) := by simpa using h [] stops_nil
    rw [h rest hrest, own, hown]
    rfl
  | refuses h =>
    obtain ⟨fault, hfault⟩ := h rest hrest
    obtain ⟨fault', hown⟩ := h [] stops_nil
    rw [List.append_nil] at hown
    rw [hfault, own, hown]
    rfl

theorem Settles.cases (h : Settles read cs) (hrest : Stops rest) :
    (∃ b, read (cs ++ rest) = .ok (b, rest) ∧ own read cs = some b) ∨
      (∃ fault, read (cs ++ rest) = .error fault ∧ own read cs = none) := by
  have hown := h.toOption_append hrest
  cases h with
  | takes b h =>
    rw [h rest hrest] at hown ⊢
    cases hb : own read cs with
    | none => rw [hb] at hown; cases hown
    | some b' =>
      rw [hb] at hown
      cases hown
      exact .inl ⟨b, rfl, rfl⟩
  | refuses h =>
    obtain ⟨fault, hfault⟩ := h rest hrest
    rw [hfault] at hown ⊢
    cases hb : own read cs with
    | none => exact .inr ⟨fault, rfl, rfl⟩
    | some b => rw [hb] at hown; cases hown

theorem settles_of_toOption {outcome : Option β}
    (h : ∀ rest, Stops rest → (read (cs ++ rest)).toOption = outcome.map fun b => (b, rest)) :
    Settles read cs ∧ own read cs = outcome := by
  have hown : own read cs = outcome := by
    have hnil := h [] stops_nil
    rw [List.append_nil] at hnil
    rw [own, hnil]
    cases outcome <;> rfl
  refine ⟨?_, hown⟩
  cases outcome with
  | some b =>
    refine .takes b fun rest hrest => ?_
    have hrest := h rest hrest
    cases hread : read (cs ++ rest) with
    | ok taken =>
      rw [hread] at hrest
      exact congrArg Except.ok (Option.some.inj hrest)
    | error fault =>
      rw [hread] at hrest
      cases hrest
  | none =>
    refine .refuses fun rest hrest => ?_
    have hrest := h rest hrest
    cases hread : read (cs ++ rest) with
    | error fault => exact ⟨fault, rfl⟩
    | ok taken =>
      rw [hread] at hrest
      cases hrest

theorem Settles.congr {read' : Reader β} {cs' : List Char} (h : Settles read cs)
    (heq : ∀ rest, Stops rest → read' (cs' ++ rest) = read (cs ++ rest)) :
    Settles read' cs' := by
  cases h with
  | takes b h => exact .takes b fun rest hrest => (heq rest hrest).trans (h rest hrest)
  | refuses h =>
    refine .refuses fun rest hrest => ?_
    rw [heq rest hrest]
    exact h rest hrest

theorem settles_of_outcome (outcome : Except Fault β)
    (h : ∀ rest, Stops rest → read (cs ++ rest) = outcome.map fun b => (b, rest)) :
    Settles read cs := by
  cases outcome with
  | ok b => exact .takes b h
  | error fault => exact .refuses fun rest hrest => ⟨fault, h rest hrest⟩

theorem own_map (read : Reader β) (f : β → α) (cs : List Char) :
    own (fun cs => (read cs).map fun (b, rest) => (f b, rest)) cs = (own read cs).map f := by
  unfold own
  dsimp only
  cases read cs <;> rfl

theorem Settles.map (h : Settles read cs) (f : β → α) :
    Settles (fun cs => (read cs).map fun (b, rest) => (f b, rest)) cs := by
  cases h with
  | takes b h => exact .takes (f b) fun rest hrest => by rw [h rest hrest]; rfl
  | refuses h =>
    refine .refuses fun rest hrest => ?_
    obtain ⟨fault, hfault⟩ := h rest hrest
    exact ⟨fault, by rw [hfault]; rfl⟩

end

/-! ## Blanks in front -/

/-- Whether a reader passes over the blanks in front. -/
def SkipsBlanks {β : Type} (read : Reader β) : Prop :=
  ∀ bs cs, Blanks bs → read (bs ++ cs) = read cs

theorem SkipsBlanks.map {β γ : Type} {read : Reader β} (h : SkipsBlanks read) (f : β → γ) :
    SkipsBlanks fun cs => (read cs).map fun (b, rest) => (f b, rest) := by
  intro bs cs hbs
  dsimp only
  rw [h bs cs hbs]

theorem readAnyNumber_skipsBlanks (name : String) : SkipsBlanks (readAnyNumber name) := by
  intro bs cs hbs
  unfold readAnyNumber
  rw [hbs.skipBlanks_append]

theorem readInteger_skipsBlanks : SkipsBlanks readInteger := by
  intro bs cs hbs
  rw [readInteger, readInteger, readAnyNumber_skipsBlanks "i64" bs cs hbs]

theorem readSingle_skipsBlanks : SkipsBlanks readSingle :=
  (readAnyNumber_skipsBlanks "f32").map Number.toSingle

theorem readText_skipsBlanks (name : String) : SkipsBlanks (readText name) := by
  intro bs cs hbs
  unfold readText
  rw [hbs.skipBlanks_append]

theorem readNull_skipsBlanks : SkipsBlanks readNull := by
  intro bs cs hbs
  unfold readNull
  rw [hbs.skipBlanks_append]

theorem readChoice_skipsBlanks {α : Type} (values : List α) (name : α → String) :
    SkipsBlanks (readChoice values name) := by
  intro bs cs hbs
  unfold readChoice
  rw [hbs.skipBlanks_append]

theorem readRecord_skipsBlanks {α : Type} (name : String) (fields : List (FieldReader α))
    (record : α) : SkipsBlanks (readRecord name fields record) := by
  intro bs cs hbs
  unfold readRecord
  rw [hbs.skipBlanks_append]

/-! ## Strings -/

/-- What the text between the quotes of a string says. -/
inductive Says : List Char → List Char → Prop
  | nil : Says [] []
  | plain {c : Char} {cs text : List Char} (hcontrol : ¬ c < ' ') (hquote : c ≠ '"')
    (hback : c ≠ '\\') (h : Says cs text) : Says (c :: cs) (c :: text)
  | escape {e c : Char} {cs text : List Char} (he : simpleEscape? e = some c) (h : Says cs text) :
    Says ('\\' :: e :: cs) (c :: text)
  | code {a b c d : Char} {n : ℕ} {cs text : List Char} (hn : hexValue4? a b c d = some n)
    (hleading : isLeading n = false) (htrailing : isTrailing n = false) (h : Says cs text) :
    Says ('\\' :: 'u' :: a :: b :: c :: d :: cs) (Char.ofNat n :: text)
  | pair {a b c d e f g k : Char} {n m : ℕ} {cs text : List Char}
    (hn : hexValue4? a b c d = some n) (hleading : isLeading n = true)
    (hm : hexValue4? e f g k = some m) (htrailing : isTrailing m = true) (h : Says cs text) :
    Says ('\\' :: 'u' :: a :: b :: c :: d :: '\\' :: 'u' :: e :: f :: g :: k :: cs)
      (joinHalves n m :: text)

/-- Whether a string is refused, whatever follows it. -/
def Refused (cs : List Char) : Prop :=
  ∀ rest, ∃ fault, readString (cs ++ '"' :: rest) = .error fault

section

variable {raw cs text : List Char}

theorem readString_plain {c : Char} (hcontrol : ¬ c < ' ') (hquote : c ≠ '"')
    (hback : c ≠ '\\') (cs : List Char) :
    readString (c :: cs) = (readString cs).map fun (text, after) => (c :: text, after) := by
  rw [readString, if_neg hcontrol]
  · exact hquote
  -- every other pattern starts with a backslash
  all_goals
    intros
    exact hback (by assumption)

theorem readString_escape {e c : Char} (he : simpleEscape? e = some c) (cs : List Char) :
    readString ('\\' :: e :: cs)
      = (readString cs).map fun (text, after) => (c :: text, after) := by
  have hu := ne_u_of_simpleEscape? he
  rw [readString, he]
  all_goals
    intros
    exact hu (by assumption)

theorem isTrailing_of_isLeading {n : ℕ} (h : isLeading n = true) : isTrailing n = false := by
  simp only [isLeading, Bool.and_eq_true, decide_eq_true_eq] at h
  simp only [isTrailing, Bool.and_eq_false_iff, decide_eq_false_iff_not]
  omega

section

variable {n : ℕ} {a b c d : Char} (hn : hexValue4? a b c d = some n)

include hn

theorem readString_code (hleading : isLeading n = false) (htrailing : isTrailing n = false)
    (cs : List Char) :
    readString ('\\' :: 'u' :: a :: b :: c :: d :: cs)
      = (readString cs).map fun (text, after) => (Char.ofNat n :: text, after) := by
  rw [readString, hn]
  simp only [htrailing, hleading, Bool.false_eq_true, if_false]

theorem readString_trailing (htrailing : isTrailing n = true) (cs : List Char) :
    readString ('\\' :: 'u' :: a :: b :: c :: d :: cs) = .error .loneSurrogate := by
  rw [readString, hn]
  simp only [htrailing, if_true]

/-- A leading half needs a code behind it. -/
theorem readString_leading (hleading : isLeading n = true) {cs : List Char}
    (hne : ∀ tail, cs ≠ '\\' :: 'u' :: tail) :
    ∃ fault, readString ('\\' :: 'u' :: a :: b :: c :: d :: cs) = .error fault := by
  rw [readString, hn]
  simp only [isTrailing_of_isLeading hleading, hleading, Bool.false_eq_true, if_false, if_true]
  split
  · exact absurd rfl (hne _)
  · exact ⟨_, rfl⟩

/-- That code has to be a trailing half. -/
theorem readString_pair (hleading : isLeading n = true) {m : ℕ} {e f g k : Char}
    (hm : hexValue4? e f g k = some m) (cs : List Char) :
    readString ('\\' :: 'u' :: a :: b :: c :: d :: '\\' :: 'u' :: e :: f :: g :: k :: cs)
      = if isTrailing m then
          (readString cs).map fun (text, after) => (joinHalves n m :: text, after)
        else .error .loneSurrogate := by
  rw [readString, hn]
  simp only [isTrailing_of_isLeading hleading, hleading, Bool.false_eq_true, if_false, if_true, hm]

end

/-- A string is read as what it says. -/
theorem Says.readString_append (h : Says cs text) (rest : List Char) :
    readString (cs ++ '"' :: rest) = .ok (text, rest) := by
  induction h with
  | nil => rfl
  | plain hcontrol hquote hback h ih =>
    rw [List.cons_append, readString_plain hcontrol hquote hback, ih]
    rfl
  | escape he h ih =>
    rw [List.cons_append, List.cons_append, readString_escape he, ih]
    rfl
  | code hn hleading htrailing h ih =>
    simp only [List.cons_append]
    rw [readString_code hn hleading htrailing, ih]
    rfl
  | pair hn hleading hm htrailing h ih =>
    simp only [List.cons_append]
    rw [readString_pair hn hleading hm, if_pos htrailing, ih]
    rfl

/-- Whether a string says something or is refused. -/
def Decided (cs : List Char) : Prop := (∃ text, Says cs text) ∨ Refused cs

/-- Characters that are read as one. -/
theorem Decided.cons (front : List Char) {c : Char} (h : Decided cs)
    (htext : ∀ text, Says cs text → Says (front ++ cs) (c :: text))
    (hread : ∀ after, readString (front ++ after)
      = (readString after).map fun (text, after) => (c :: text, after)) :
    Decided (front ++ cs) := by
  rcases h with ⟨text, h⟩ | h
  · exact .inl ⟨_, htext text h⟩
  · refine .inr fun rest => ?_
    obtain ⟨fault, hfault⟩ := h rest
    exact ⟨fault, by rw [List.append_assoc, hread, hfault]; rfl⟩

theorem decided_leading {n : ℕ} {a b c d : Char} (hn : hexValue4? a b c d = some n)
    (hleading : isLeading n = true) (h : IsQuoted cs)
    (hpair : ∀ e f g k tail, cs = '\\' :: 'u' :: e :: f :: g :: k :: tail → Decided tail) :
    Decided ('\\' :: 'u' :: a :: b :: c :: d :: cs) := by
  have hlone : (∀ rest tail, cs ++ '"' :: rest ≠ '\\' :: 'u' :: tail) →
      Decided ('\\' :: 'u' :: a :: b :: c :: d :: cs) :=
    fun hne => .inr fun rest => readString_leading hn hleading (hne rest)
  cases h with
  | nil => exact hlone nofun
  | plain hcontrol hquote hback => exact hlone fun rest tail h => hback (List.cons.inj h).1
  | escape he =>
    exact hlone fun rest tail h => ne_u_of_simpleEscape? he (List.cons.inj (List.cons.inj h).2).1
  | @code e f g k m tail hm h =>
    have hread := readString_pair hn hleading hm
    cases htrailing : isTrailing m with
    | true =>
      rw [htrailing] at hread
      exact (hpair e f g k tail rfl).cons ['\\', 'u', a, b, c, d, '\\', 'u', e, f, g, k]
        (fun text => .pair hn hleading hm htrailing) hread
    | false =>
      rw [htrailing] at hread
      exact .inr fun rest => ⟨.loneSurrogate, hread _⟩

/-- What a string says, if anything, is decided by its own text. -/
theorem IsQuoted.decided (h : IsQuoted cs) : Decided cs := by
  -- A leading half may take the code behind it, so the codes are taken off first.
  have hboth : Decided cs ∧ ∀ e f g k tail,
      cs = '\\' :: 'u' :: e :: f :: g :: k :: tail → Decided tail := by
    induction h with
    | nil => exact ⟨.inl ⟨[], .nil⟩, nofun⟩
    | plain hcontrol hquote hback h ih =>
      exact ⟨ih.1.cons [_] (fun text => .plain hcontrol hquote hback)
          (readString_plain hcontrol hquote hback),
        fun e f g k tail heq => absurd (List.cons.inj heq).1 hback⟩
    | escape he h ih =>
      exact ⟨ih.1.cons [_, _] (fun text => .escape he) (readString_escape he),
        fun e f g k tail heq =>
          absurd (List.cons.inj (List.cons.inj heq).2).1 (ne_u_of_simpleEscape? he)⟩
    | @code a b c d n cs hn h ih =>
      refine ⟨?_, fun e f g k tail heq => ?_⟩
      · cases htrailing : isTrailing n with
        | true => exact .inr fun rest => ⟨_, readString_trailing hn htrailing _⟩
        | false =>
          cases hleading : isLeading n with
          | true => exact decided_leading hn hleading h ih.2
          | false =>
            exact ih.1.cons ['\\', 'u', a, b, c, d] (fun text => .code hn hleading htrailing)
              (readString_code hn hleading htrailing)
      · cases heq
        exact ih.1
  exact hboth.1

theorem IsQuoted.settles (h : IsQuoted cs) : Settles readString (cs ++ ['"']) := by
  have happend : ∀ rest, cs ++ ['"'] ++ rest = cs ++ '"' :: rest := fun rest =>
    List.append_assoc cs ['"'] rest
  rcases h.decided with ⟨text, htext⟩ | hrefused
  · exact .takes text fun rest _ => by rw [happend, htext.readString_append]
  · exact .refuses fun rest _ => by rw [happend]; exact hrefused rest

/-- What is read from a string on its own is what it says. -/
theorem IsQuoted.says_of_own (h : IsQuoted cs) (hown : own readString (cs ++ ['"']) = some text) :
    Says cs text := by
  rcases h.decided with ⟨text', htext⟩ | hrefused
  · rw [own, htext.readString_append] at hown
    cases hown
    exact htext
  · obtain ⟨fault, hfault⟩ := hrefused []
    rw [own, hfault] at hown
    cases hown

end

/-! ## Numbers -/

section

variable {cs ws fs es sign : List Char} (negative : Bool) (n : ℕ) (e : ℤ)

/-- The number that an exponent completes. -/
def withExponent (down : Bool) (written : ℕ) : Except Fault Float :=
  if exponentTop < written then
    if n != 0 && !down then .error .numberOutOfRange else .ok (if negative then -0.0 else 0.0)
  else realOf negative n (if down then e - written else e + written)

/-- Reads an exponent whose sign has been passed, and completes the number. -/
def afterSign (down : Bool) : Reader Float := fun cs =>
  match digitsOf cs with
  | ([], []) => .error .endInValue
  | ([], _ :: _) => .error .invalidNumber
  | (digits, rest) => (withExponent negative n e down (digitsValue digits)).map fun x => (x, rest)

theorem settles_afterSign (down : Bool) (hes : Digits es) :
    Settles (afterSign negative n e down) es := by
  obtain ⟨d, ds, hds⟩ := hes.digitValues
  refine settles_of_outcome (withExponent negative n e down (digitsValue (d :: ds)))
    fun rest hrest => ?_
  rw [afterSign, digitsOf_append hes.all hrest.digit, hds]

theorem readExponent_eq_afterSign (hsign : IsSign sign) (hes : Digits es) :
    ∃ down, ∀ rest, readExponent negative n e (sign ++ (es ++ rest))
      = afterSign negative n e down (es ++ rest) := by
  have hmap : ∀ (down : Bool) (written : ℕ) (rest : List Char),
      (if exponentTop < written then
        if n != 0 && !down then Except.error Fault.numberOutOfRange
        else .ok (if negative then (-0.0 : Float) else 0.0, rest)
      else (realOf negative n (if down then e - written else e + written)).map fun x => (x, rest))
      = (withExponent negative n e down written).map fun x => (x, rest) := by
    intro down written rest
    unfold withExponent
    split
    · split <;> rfl
    · rfl
  cases hsign with
  | plus =>
    refine ⟨false, fun rest => ?_⟩
    unfold afterSign
    simp only [← hmap]
    rfl
  | minus =>
    refine ⟨true, fun rest => ?_⟩
    unfold afterSign
    simp only [← hmap]
    rfl
  | none =>
    obtain ⟨c, cs, rfl⟩ := List.exists_cons_of_ne_nil hes.ne_nil
    have hc := hes.all c (List.mem_cons_self ..)
    refine ⟨false, fun rest => ?_⟩
    unfold afterSign
    simp only [← hmap]
    rw [List.nil_append, List.cons_append]
    unfold readExponent
    split
    next h =>
      split at h
      · next hplus => exact absurd (List.cons.inj hplus).1 (ne_of_isDigit hc rfl)
      · next hminus => exact absurd (List.cons.inj hminus).1 (ne_of_isDigit hc rfl)
      · cases h
        rfl

theorem settles_readExponent (hsign : IsSign sign) (hes : Digits es) :
    Settles (readExponent negative n e) (sign ++ es) := by
  obtain ⟨down, hdown⟩ := readExponent_eq_afterSign negative n e hsign hes
  refine (settles_afterSign negative n e down hes).congr fun rest _ => ?_
  rw [List.append_assoc, hdown]

theorem settles_afterFraction (hes : IsExponent es) :
    Settles (afterFraction negative n e) es := by
  cases hes with
  | none =>
    exact settles_of_outcome (realOf negative n e) fun rest hrest =>
      afterFraction_of_stops negative hrest
  | some hletter hsign hes =>
    refine (settles_readExponent negative n e hsign hes).congr fun rest _ => ?_
    obtain rfl | rfl := hletter <;> rfl

/-- A fraction goes on with an exponent or none. -/
theorem readFraction_eq_afterFraction (hfs : Digits fs) :
    ∃ n' e', ∀ rest, (∀ c, rest.head? = some c → isDigit c = false) →
      readFraction negative n e (fs ++ rest) = afterFraction negative n' e' rest := by
  obtain ⟨d, ds, hds⟩ := hfs.digitValues
  refine ⟨(absorb n (d :: ds)).1,
    e - ((d :: ds).length - (absorb n (d :: ds)).2.length : ℕ), fun rest hrest => ?_⟩
  rw [readFraction, digitsOf_append hfs.all hrest, hds]
  rfl

theorem settles_readFraction (hfs : Digits fs) (hes : IsExponent es) :
    Settles (readFraction negative n e) (fs ++ es) := by
  obtain ⟨n', e', hafter⟩ := readFraction_eq_afterFraction negative n e hfs
  refine (settles_afterFraction negative n' e' hes).congr fun rest hrest => ?_
  rw [List.append_assoc, hafter _ (not_digit_of_isExponent hes hrest)]

theorem settles_afterDigits (left : List ℕ) (hfs : IsFraction fs) (hes : IsExponent es) :
    Settles (afterDigits negative n left) (fs ++ es) := by
  cases hfs with
  | some hfs =>
    exact ((settles_readFraction negative n left.length hfs hes).map Number.real).congr
      fun rest _ => rfl
  | none =>
    cases hes with
    | some hletter hsign hes =>
      refine ((settles_readExponent negative n left.length hsign hes).map Number.real).congr
        fun rest _ => ?_
      obtain rfl | rfl := hletter <;> rfl
    | none =>
      exact settles_of_outcome _ fun rest hrest => afterDigits_of_stops negative left hrest

theorem settles_readNumber (h : IsUnsigned cs) : Settles (readNumber negative) cs := by
  cases h with | @mk ws fs es hws hfs hes =>
  refine (settles_afterDigits negative (absorb 0 (digitValues ws)).1
    (absorb 0 (digitValues ws)).2 hfs hes).congr fun rest hrest => ?_
  rw [List.append_assoc, List.append_assoc, readNumber_eq_afterDigits negative hws
    (not_digit_of_isFraction hfs hes hrest), ← List.append_assoc]

end

end Relief.Json
