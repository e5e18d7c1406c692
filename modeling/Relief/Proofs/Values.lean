import Relief.Proofs.Readings

set_option autoImplicit false

/-! # Values: what single values are read as

Numbers, strings, nulls and choices are read from a value or refused, whatever follows it. A value
that is read as a whole number is the text of that number (`isWhole_of_readInteger`), one that is
read as a string says it (`isText_of_readText`), and one that is read as a choice names it, as a
string or as the only key of an object (`names_of_readChoice`). -/

namespace Relief.Json

/-! ## Scalars -/

section

variable {cs : List Char}

theorem settles_readAnyNumber (name : String) (h : IsValue cs) :
    Settles (readAnyNumber name) cs := by
  cases h with
  | number h =>
    cases h with
    | minus h => exact (settles_readNumber true h).congr fun rest _ => rfl
    | unsigned h =>
      refine (settles_readNumber false h).congr fun rest _ => ?_
      obtain ⟨c, after, rfl, hc⟩ := h.head
      exact readAnyNumber_digit name hc
  | null | yes | no | string => exact .refuses fun rest _ => ⟨_, rfl⟩
  | empty nest | @nested _ nest => cases nest <;> exact .refuses fun rest _ => ⟨_, rfl⟩

theorem settles_readInteger (h : IsValue cs) : Settles readInteger cs := by
  cases settles_readAnyNumber "i64" h with
  | takes x h =>
    cases x with
    | real x =>
      refine .refuses fun rest hrest => ⟨.invalidType (.number x) "i64", ?_⟩
      rw [readInteger, h rest hrest]
    | whole n =>
      refine settles_of_outcome (if n ≤ signedTop then .ok n
        else .error (.invalidValue (.integer n) "i64")) fun rest hrest => ?_
      rw [readInteger, h rest hrest]
      dsimp only
      split <;> rfl
  | refuses h =>
    refine .refuses fun rest hrest => ?_
    obtain ⟨fault, hfault⟩ := h rest hrest
    exact ⟨fault, by rw [readInteger, hfault]⟩

theorem settles_readSingle (h : IsValue cs) : Settles readSingle cs :=
  (settles_readAnyNumber "f32" h).map Number.toSingle

/-- A number starts with a digit or a minus sign. -/
theorem IsNumber.head (h : IsNumber cs) :
    ∃ c after, cs = c :: after ∧ isBlank c = false ∧
      ∀ d, isDigit d = false → d ≠ '-' → c ≠ d := by
  cases h with
  | minus h => exact ⟨_, _, rfl, rfl, fun d _ hd => hd.symm⟩
  | unsigned h =>
    obtain ⟨c, after, rfl, hc⟩ := h.head
    exact ⟨c, after, rfl, isBlank_eq_false hc, fun d hd _ => ne_of_isDigit hc hd⟩

section

variable {c : Char} (hblank : isBlank c = false) (after : List Char)

include hblank

theorem readText_of_ne (name : String) (hc : c ≠ '"') :
    ∃ fault, readText name (c :: after) = .error fault := by
  unfold readText
  rw [skipBlanks_cons hblank]
  split
  · next h => cases h
  · next h => exact absurd (List.cons.inj h).1 hc
  · exact ⟨_, rfl⟩

theorem readNull_of_ne (hc : c ≠ 'n') : ∃ fault, readNull (c :: after) = .error fault := by
  unfold readNull
  rw [skipBlanks_cons hblank]
  split
  · next h => cases h
  · next h => exact absurd (List.cons.inj h).1 hc
  · exact ⟨_, rfl⟩

theorem readChoice_of_ne {α : Type} (values : List α) (name : α → String) (hquote : c ≠ '"')
    (hobject : c ≠ '\x7b') : ∃ fault, readChoice values name (c :: after) = .error fault := by
  unfold readChoice
  rw [skipBlanks_cons hblank]
  split
  · next h => cases h
  · next h => exact absurd (List.cons.inj h).1 hquote
  · next h => exact absurd (List.cons.inj h).1 hobject
  · exact ⟨_, rfl⟩

end

theorem settles_readText (name : String) (h : IsValue cs) : Settles (readText name) cs := by
  cases h with
  | string h => exact (h.settles.map String.ofList).congr fun rest _ => rfl
  | number h =>
    obtain ⟨c, after, rfl, hblank, hne⟩ := h.head
    exact .refuses fun rest _ => readText_of_ne hblank _ name (hne '"' rfl (by decide))
  | null | yes | no => exact .refuses fun rest _ => ⟨_, rfl⟩
  | empty nest | @nested _ nest => cases nest <;> exact .refuses fun rest _ => ⟨_, rfl⟩

theorem settles_readNull (h : IsValue cs) : Settles readNull cs := by
  cases h with
  | null => exact .takes () fun rest _ => rfl
  | number h =>
    obtain ⟨c, after, rfl, hblank, hne⟩ := h.head
    exact .refuses fun rest _ => readNull_of_ne hblank _ (hne 'n' rfl (by decide))
  | string | yes | no => exact .refuses fun rest _ => ⟨_, rfl⟩
  | empty nest | @nested _ nest => cases nest <;> exact .refuses fun rest _ => ⟨_, rfl⟩

end

/-! ## Whole numbers -/

/-- The texts of whole numbers, each with the number it names. -/
inductive IsWhole : List Char → ℤ → Prop
  | plain {ws : List Char} (h : WholePart ws) : IsWhole ws (Nat.ofDigitChars 10 ws 0)
  | minus {ws : List Char} (h : WholePart ws) : IsWhole ('-' :: ws) (-Nat.ofDigitChars 10 ws 0)

section

variable {cs ws : List Char} {negative : Bool} {n : ℤ}

theorem absorb_eq_foldl {m k : ℕ} {ds : List ℕ} (h : absorb m ds = (k, [])) :
    k = ds.foldl (fun n d => n * 10 + d) m := by
  induction ds generalizing m with
  | nil => exact (Prod.mk.inj h).1.symm
  | cons d ds ih =>
    rw [absorb] at h
    split at h
    · exact ih h
    · cases (Prod.mk.inj h).2

theorem wholeOf_eq_whole {k : ℕ} (h : wholeOf negative k = .whole n) :
    n = if negative then -(k : ℤ) else k := by
  unfold wholeOf at h
  split at h
  · next hnegative =>
    split at h
    · cases h
    · cases h
      exact (if_pos hnegative).symm
  · next hnegative =>
    cases h
    exact (if_neg hnegative).symm

/-- A number that is read as a whole one has neither fraction nor exponent. -/
theorem IsUnsigned.whole_of_own (h : IsUnsigned cs)
    (hn : own (readNumber negative) cs = some (.whole n)) :
    WholePart cs ∧ n = if negative then -(Nat.ofDigitChars 10 cs 0 : ℤ)
      else Nat.ofDigitChars 10 cs 0 := by
  cases h with | @mk ws fs es hws hfs hes =>
  have hstart := not_digit_of_isFraction hfs hes stops_nil
  rw [List.append_nil] at hstart
  rw [own, readNumber_eq_afterDigits negative hws hstart] at hn
  have hreal : ∀ read : Except Fault (Float × List Char),
      (read.map fun taken => (Number.real taken.1, taken.2)).toOption.map Prod.fst
        ≠ some (.whole n) := by
    rintro (fault | taken) h <;> cases h
  cases hfs with
  | some hfs => exact absurd hn (hreal _)
  | none =>
    cases hes with
    | some hletter hsign hes => obtain rfl | rfl := hletter <;> exact absurd hn (hreal _)
    | none =>
      rw [List.append_nil, List.append_nil]
      refine ⟨hws, ?_⟩
      cases habsorb : absorb 0 (digitValues ws) with | mk k left =>
      rw [habsorb, List.append_nil, afterDigits_of_stops _ _ stops_nil] at hn
      cases left with
      | nil =>
        have hwhole : wholeOf negative k = .whole n := Option.some.inj hn
        have hk : k = digitsValue (digitValues ws) := absorb_eq_foldl habsorb
        rw [wholeOf_eq_whole hwhole, hk, digitsValue_digitValues]
      | cons d left =>
        dsimp only [List.isEmpty_cons] at hn
        cases hread : realOf negative k (d :: left).length with
        | error fault => rw [hread] at hn; cases hn
        | ok x => rw [hread] at hn; cases hn

/-- A whole number is read as the one that its text names. -/
theorem isWhole_of_readInteger (h : IsValue cs) (hn : own readInteger cs = some n) :
    IsWhole cs n := by
  have hany : own (readAnyNumber "i64") cs = some (.whole n) := by
    unfold own readInteger at hn
    unfold own
    cases hread : readAnyNumber "i64" cs with
    | error fault => rw [hread] at hn; cases hn
    | ok taken =>
      obtain ⟨x, rest⟩ := taken
      rw [hread] at hn
      cases x with
      | real x => cases hn
      | whole k =>
        dsimp only at hn
        split at hn
        · cases hn; rfl
        · cases hn
  cases h with
  | number h =>
    cases h with
    | minus h =>
      have hread : own (readNumber true) _ = some (.whole n) := hany
      obtain ⟨hws, rfl⟩ := h.whole_of_own hread
      exact .minus hws
    | unsigned h =>
      obtain ⟨c, after, rfl, hc⟩ := h.head
      rw [own, readAnyNumber_digit "i64" hc] at hany
      obtain ⟨hws, rfl⟩ := h.whole_of_own hany
      exact .plain hws
  | null | yes | no | string => cases hany
  | empty nest | @nested _ nest => cases nest <;> cases hany

end

/-! ## Strings -/

/-- The texts of strings, each with what it says. -/
inductive IsText : List Char → String → Prop
  | mk {raw : List Char} {text : String} (h : Says raw text.toList) :
    IsText ('"' :: (raw ++ ['"'])) text

theorem own_of_error {β : Type} {read : Reader β} {cs : List Char}
    (h : ∃ fault, read cs = .error fault) : own read cs = none := by
  obtain ⟨fault, hfault⟩ := h
  rw [own, hfault]
  rfl

/-- A string is read as what its text says. -/
theorem isText_of_readText {name text : String} {cs : List Char} (h : IsValue cs)
    (hown : own (readText name) cs = some text) : IsText cs text := by
  cases h with
  | @string raw h =>
    have hmap := own_map readString String.ofList (raw ++ ['"'])
    obtain ⟨chars, hchars, rfl⟩ := Option.map_eq_some_iff.1 (hmap.symm.trans hown)
    refine .mk ?_
    rw [String.toList_ofList]
    exact h.says_of_own hchars
  | number h =>
    obtain ⟨c, after, rfl, hblank, hne⟩ := h.head
    rw [own_of_error (readText_of_ne hblank after name (hne '"' rfl (by decide)))] at hown
    cases hown
  | null | yes | no => cases hown
  | empty nest | @nested _ nest => cases nest <;> cases hown

theorem eq_null_of_readNull {u : Unit} {cs : List Char} (h : IsValue cs)
    (hown : own readNull cs = some u) : cs = ['n', 'u', 'l', 'l'] := by
  cases h with
  | null => rfl
  | number h =>
    obtain ⟨c, after, rfl, hblank, hne⟩ := h.head
    rw [own_of_error (readNull_of_ne hblank after (hne 'n' rfl (by decide)))] at hown
    cases hown
  | string | yes | no => cases hown
  | empty nest | @nested _ nest => cases nest <;> cases hown

/-! ## Choices -/

section

variable {α : Type} (values : List α) (name : α → String)

/-- Reads what has to stand behind the null of an object that chooses. -/
def afterNull (value : α) : Reader α := fun cs =>
  match skipBlanks cs with
  | '\x7d' :: rest => .ok (value, rest)
  | _ :: _ => .error .expectedValue
  | [] => .error .endInObject

/-- Reads what stands behind the name in an object that chooses. -/
def afterName (value : α) : Reader α := fun cs =>
  match skipColon cs with
  | .error fault => .error fault
  | .ok rest =>
    match readNull rest with
    | .error fault => .error fault
    | .ok ((), rest) => afterNull value rest

/-- Reads a choice whose opening quote has been passed. -/
def readName : Reader α := fun cs =>
  match readString cs with
  | .error fault => .error fault
  | .ok (text, rest) =>
    match choose values name (String.ofList text) with
    | .error fault => .error fault
    | .ok value => afterName value rest

theorem readChoice_object {bs : List Char} (hbs : Blanks bs) (cs : List Char) :
    readChoice values name ('\x7b' :: (bs ++ '"' :: cs)) = readName values name cs := by
  unfold readChoice
  rw [skipBlanks_opening]
  simp only [hbs.skipBlanks_append, skipBlanks_quote]
  rfl

theorem readChoice_empty {bs : List Char} (hbs : Blanks bs) (cs : List Char) :
    readChoice values name ('\x7b' :: (bs ++ '\x7d' :: cs)) = .error .expectedValue := by
  unfold readChoice
  rw [skipBlanks_opening]
  simp only [hbs.skipBlanks_append, skipBlanks_closing]

/-- The key or the name that stands between quotes, if it is one. -/
def keyOf? (raw : List Char) : Option String :=
  (own readString (raw ++ ['"'])).map String.ofList

/-- What an object chooses: its only key, if null is the value. -/
def chosen? : List Member → Option α
  | [(raw, cs)] =>
    (keyOf? raw).bind fun key => (choose values name key).toOption.bind fun value =>
      (own readNull cs).map fun _ => value
  | _ => none

theorem readName_toOption (cs : List Char) :
    (readName values name cs).toOption = (readString cs).toOption.bind fun (text, rest) =>
      (choose values name (String.ofList text)).toOption.bind fun value =>
        (afterName value rest).toOption := by
  unfold readName
  cases readString cs with
  | error fault => rfl
  | ok taken =>
    obtain ⟨text, rest⟩ := taken
    show _ = (choose values name (String.ofList text)).toOption.bind fun value =>
      (afterName value rest).toOption
    dsimp only
    cases choose values name (String.ofList text) <;> rfl

theorem readString_toOption {raw : List Char} (hraw : IsQuoted raw) {rest : List Char}
    (hrest : Stops rest) :
    (readString (raw ++ '"' :: rest)).toOption
      = (own readString (raw ++ ['"'])).map fun text => (text, rest) := by
  rw [← hraw.settles.toOption_append hrest, List.append_assoc]
  rfl

theorem skipColon_append {bs : List Char} (hbs : Blanks bs) (cs : List Char) :
    skipColon (bs ++ ':' :: cs) = .ok cs := by
  rw [skipColon, hbs.skipBlanks_append]
  rfl

theorem afterName_toOption {bs bs' cs rest : List Char} (hbs : Blanks bs) (hbs' : Blanks bs')
    (h : IsValue cs) (hrest : Stops rest) (value : α) :
    (afterName value (bs ++ ':' :: (bs' ++ (cs ++ rest)))).toOption
      = (own readNull cs).bind fun _ => (afterNull value rest).toOption := by
  have hnull := (settles_readNull h).toOption_append hrest
  unfold afterName
  rw [skipColon_append hbs]
  simp only [readNull_skipsBlanks _ _ hbs']
  cases hown : own readNull cs with
  | none =>
    rw [hown] at hnull
    cases hread : readNull (cs ++ rest) with
    | error fault => rfl
    | ok taken => rw [hread] at hnull; cases hnull
  | some u =>
    rw [hown] at hnull
    cases hread : readNull (cs ++ rest) with
    | error fault => rw [hread] at hnull; cases hnull
    | ok taken =>
      rw [hread] at hnull
      cases hnull
      rfl

theorem readName_object {raw bs bs' cs rest : List Char} (hraw : IsQuoted raw) (hbs : Blanks bs)
    (hbs' : Blanks bs') (h : IsValue cs) (hrest : Stops rest) :
    (readName values name (raw ++ '"' :: (bs ++ ':' :: (bs' ++ (cs ++ rest))))).toOption
      = (keyOf? raw).bind fun key => (choose values name key).toOption.bind fun value =>
          (own readNull cs).bind fun _ => (afterNull value rest).toOption := by
  rw [readName_toOption, readString_toOption hraw (stops_append hbs stops_colon), keyOf?]
  simp only [Option.bind_map, Function.comp_def, afterName_toOption hbs hbs' h hrest]

theorem afterNull_close {bs : List Char} (hbs : Blanks bs) (value : α) (rest : List Char) :
    afterNull value (bs ++ '\x7d' :: rest) = .ok (value, rest) := by
  rw [afterNull, hbs.skipBlanks_append]
  rfl

theorem afterNull_comma {bs : List Char} (hbs : Blanks bs) (value : α) (rest : List Char) :
    afterNull value (bs ++ ',' :: rest) = .error .expectedValue := by
  rw [afterNull, hbs.skipBlanks_append]
  rfl

theorem readChoice_members {members : List Member} {cs : List Char}
    (h : IsMembers members cs) (rest : List Char) :
    (readChoice values name ('\x7b' :: (cs ++ '\x7d' :: rest))).toOption
      = (chosen? values name members).map fun value => (value, rest) := by
  cases h with
  | @last raw front cs bs hkey h hbs =>
    obtain ⟨hbs₀, hraw, hbs₁, hbs₂⟩ := hkey
    have hstops : Stops (bs ++ '\x7d' :: rest) := stops_append hbs (stops_close .object)
    simp only [List.append_assoc, List.cons_append]
    rw [readChoice_object values name hbs₀, readName_object values name hraw hbs₁ hbs₂ h hstops]
    simp only [afterNull_close hbs, chosen?]
    cases keyOf? raw with
    | none => rfl
    | some key =>
      simp only [Option.bind_some]
      cases choose values name key with
      | error fault => rfl
      | ok value =>
        simp only [Except.toOption, Option.bind_some]
        cases own readNull cs <;> rfl
  | @next raw front cs bs more members hkey h hbs hmore =>
    obtain ⟨hbs₀, hraw, hbs₁, hbs₂⟩ := hkey
    have hstops : Stops (bs ++ ',' :: (more ++ '\x7d' :: rest)) := stops_append hbs stops_comma
    have hchosen : chosen? values name ((raw, cs) :: members) = none := by
      cases hmore <;> rfl
    simp only [List.append_assoc, List.cons_append]
    rw [readChoice_object values name hbs₀, readName_object values name hraw hbs₁ hbs₂ h hstops,
      hchosen]
    simp only [afterNull_comma hbs]
    cases keyOf? raw with
    | none => rfl
    | some key =>
      simp only [Option.bind_some]
      cases choose values name key with
      | error fault => rfl
      | ok value =>
        simp only [Except.toOption, Option.bind_some]
        cases own readNull cs <;> rfl

theorem readChoice_isObject {members : List Member} {cs : List Char} (h : IsObject members cs) :
    Settles (readChoice values name) cs ∧
      own (readChoice values name) cs = chosen? values name members := by
  refine settles_of_toOption fun rest hrest => ?_
  cases h with
  | empty hbs =>
    rw [List.cons_append, List.append_assoc]
    exact congrArg Except.toOption (readChoice_empty values name hbs rest)
  | members h =>
    rw [List.cons_append, List.append_assoc]
    exact readChoice_members values name h rest

theorem readChoice_string {raw text : List Char} (h : Says raw text) (rest : List Char) :
    readChoice values name ('"' :: (raw ++ '"' :: rest))
      = (choose values name (String.ofList text)).map fun value => (value, rest) := by
  unfold readChoice
  rw [skipBlanks_quote]
  simp only [h.readString_append]

theorem readChoice_refused {raw : List Char} (h : Refused raw) (rest : List Char) :
    ∃ fault, readChoice values name ('"' :: (raw ++ '"' :: rest)) = .error fault := by
  obtain ⟨fault, hfault⟩ := h rest
  refine ⟨fault, ?_⟩
  unfold readChoice
  rw [skipBlanks_quote]
  simp only [hfault]

theorem settles_readChoice {cs : List Char} (h : IsValue cs) :
    Settles (readChoice values name) cs := by
  cases h with
  | @string raw h =>
    have happend : ∀ rest, '"' :: (raw ++ ['"']) ++ rest = '"' :: (raw ++ '"' :: rest) :=
      fun rest => congrArg ('"' :: ·) (List.append_assoc raw ['"'] rest)
    rcases h.decided with ⟨text, htext⟩ | hrefused
    · exact settles_of_outcome (choose values name (String.ofList text)) fun rest _ => by
        rw [happend, readChoice_string values name htext]
    · exact .refuses fun rest _ => by
        rw [happend]
        exact readChoice_refused values name hrefused rest
  | number h =>
    obtain ⟨c, after, rfl, hblank, hne⟩ := h.head
    exact .refuses fun rest _ =>
      readChoice_of_ne hblank _ values name (hne '"' rfl (by decide)) (hne '\x7b' rfl (by decide))
  | null | yes | no => exact .refuses fun rest _ => ⟨_, rfl⟩
  | empty nest h =>
    cases nest with
    | list => exact .refuses fun rest _ => ⟨_, rfl⟩
    | object => exact (readChoice_isObject values name (.empty h)).1
  | @nested _ nest h =>
    cases nest with
    | list => exact .refuses fun rest _ => ⟨_, rfl⟩
    | object =>
      obtain ⟨members, hmembers⟩ := h.exists_members rfl
      exact (readChoice_isObject values name (.members hmembers)).1

/-- The texts that name a choice: its name as a string, or an object with the name as its only key
    and null as value. -/
inductive Names : List Char → α → Prop
  | string {cs : List Char} {value : α} (h : IsText cs (name value)) : Names cs value
  | object {raw cs : List Char} {value : α} (hraw : Says raw (name value).toList)
    (hcs : IsObject [(raw, ['n', 'u', 'l', 'l'])] cs) : Names cs value

theorem name_of_choose {text : String} {value : α}
    (h : (choose values name text).toOption = some value) : name value = text := by
  unfold choose at h
  split at h
  · next hfind =>
    cases h
    have hname := List.find?_some hfind
    exact eq_of_beq hname
  · cases h

theorem says_of_keyOf? {raw : List Char} {key : String} (h : IsQuoted raw)
    (hkey : keyOf? raw = some key) : Says raw key.toList := by
  obtain ⟨chars, hchars, rfl⟩ := Option.map_eq_some_iff.1 hkey
  rw [String.toList_ofList]
  exact h.says_of_own hchars

theorem names_of_chosen? {members : List Member} {cs : List Char} {value : α}
    (h : IsObject members cs) (hchosen : chosen? values name members = some value) :
    Names name cs value := by
  cases h with
  | empty => cases hchosen
  | members h =>
    cases h with
    | @last raw front cs bs hkey hvalue hbs =>
      obtain ⟨key, hkeyOf, hrest⟩ := Option.bind_eq_some_iff.1 hchosen
      obtain ⟨value', hchoose, hnull⟩ := Option.bind_eq_some_iff.1 hrest
      obtain ⟨u, hu, rfl⟩ := Option.map_eq_some_iff.1 hnull
      obtain rfl := name_of_choose values name hchoose
      obtain rfl := eq_null_of_readNull hvalue hu
      cases hkey with
      | mk hbs₀ hraw hbs₁ hbs₂ =>
        exact .object (says_of_keyOf? hraw hkeyOf)
          (.members (.last (.mk hbs₀ hraw hbs₁ hbs₂) hvalue hbs))
    | next hkey hvalue hbs hmore => cases hmore <;> cases hchosen

/-- A choice is read as the value that its text names. -/
theorem names_of_readChoice {cs : List Char} {value : α} (h : IsValue cs)
    (hown : own (readChoice values name) cs = some value) : Names name cs value := by
  cases h with
  | @string raw h =>
    rcases h.decided with ⟨text, htext⟩ | hrefused
    · have hchoose : (choose values name (String.ofList text)).toOption = some value := by
        rw [← hown, own, readChoice_string values name htext]
        cases choose values name (String.ofList text) <;> rfl
      refine .string (.mk ?_)
      rwa [name_of_choose values name hchoose, String.toList_ofList]
    · rw [own_of_error (readChoice_refused values name hrefused [])] at hown
      cases hown
  | number h =>
    obtain ⟨c, after, rfl, hblank, hne⟩ := h.head
    rw [own_of_error (readChoice_of_ne hblank after values name (hne '"' rfl (by decide))
      (hne '\x7b' rfl (by decide)))] at hown
    cases hown
  | null | yes | no => cases hown
  | empty nest h =>
    cases nest with
    | list => cases hown
    | object =>
      have hchosen := (readChoice_isObject values name (.empty h)).2
      cases hchosen.symm.trans hown
  | @nested _ nest h =>
    cases nest with
    | list => cases hown
    | object =>
      obtain ⟨members, hmembers⟩ := h.exists_members rfl
      have hobject := IsObject.members hmembers
      have hchosen := (readChoice_isObject values name hobject).2
      exact names_of_chosen? values name hobject (hchosen.symm.trans hown)

end

end Relief.Json
