import Relief.Proofs.Readings

set_option autoImplicit false

/-! # Records: written objects are read back

A written value stands behind a blank and before a comma or a new line, so that its end is seen
whatever it is (`Reads`). Strings come back whatever their characters (`readString_escaped`), and a
record comes back from its members when each of them does (`Fills`, `Fills.reads`): the members are
read in the order in which they were written, and no key comes twice. What holds of the standard
record and is kept by every field holds of whatever is read (`readRecord_keeps`). -/

namespace Relief.Json

/-! ## Strings -/

theorem hexValue4?_control : ∀ n < 32,
    hexValue4? '0' '0' (Nat.digitChar (n / 16)) (Nat.digitChar (n % 16)) = some n := by
  decide

/-- An escaped character is read as the character. -/
theorem readString_escapeChar (c : Char) (cs : List Char) :
    readString (Document.escapeChar c ++ cs)
      = (readString cs).map fun (text, after) => (c :: text, after) := by
  unfold Document.escapeChar
  split
  · rfl
  · rfl
  · rfl
  · rfl
  · rfl
  · rfl
  · rfl
  · next hquote hback _ _ _ _ _ =>
    split
    · next hcontrol =>
      have hlt : c.toNat < 32 := UInt32.lt_iff_toNat_lt.1 hcontrol
      have htrailing : isTrailing c.toNat = false := by
        simp only [isTrailing, Bool.and_eq_false_iff, decide_eq_false_iff_not]
        omega
      have hleading : isLeading c.toNat = false := by
        simp only [isLeading, Bool.and_eq_false_iff, decide_eq_false_iff_not]
        omega
      have hread := readString_code (hexValue4?_control c.toNat hlt) hleading htrailing cs
      rwa [Char.ofNat_toNat] at hread
    · next hplain => exact readString_plain hplain hquote hback cs

/-- A string is read as it was written, whatever its characters. -/
theorem readString_escaped (text rest : List Char) :
    readString (text.flatMap Document.escapeChar ++ '"' :: rest) = .ok (text, rest) := by
  induction text with
  | nil => rfl
  | cons c text ih =>
    rw [List.flatMap_cons, List.append_assoc, readString_escapeChar, ih]
    rfl

/-! ## Values -/

/-- Whether a value has ended: a comma or a new line follows it. -/
def Closes (cs : List Char) : Prop := ∃ c rest, cs = c :: rest ∧ (c = ',' ∨ c = '\n')

theorem Closes.stops {cs : List Char} (h : Closes cs) : Stops cs := by
  obtain ⟨c, rest, rfl, rfl | rfl⟩ := h <;> rintro c ⟨rfl⟩ <;> decide

theorem closes_comma (cs : List Char) : Closes (',' :: cs) := ⟨_, _, rfl, .inl rfl⟩

theorem closes_newline (depth : ℕ) (cs : List Char) : Closes (Document.newline depth ++ cs) :=
  ⟨_, _, rfl, .inr rfl⟩

/-- What a reader makes of a text behind a blank: a value, after which it goes on, or a fault. -/
def Reads {β : Type} (read : Reader β) (text : List Char) (outcome : Except Fault β) : Prop :=
  ∀ rest, Closes rest → read (' ' :: text ++ rest) = outcome.map fun b => (b, rest)

theorem Reads.of {α β : Type} {read : Reader β} {text : List Char} {outcome : Except Fault β}
    (h : Reads read text outcome) (key : String) (store : α → β → α) (record : α) :
    Reads ((FieldReader.of key read store).read record) text (outcome.map (store record)) := by
  intro rest hrest
  show (read _).map _ = _
  rw [h rest hrest]
  cases outcome <;> rfl

theorem string_append (text : String) (rest : List Char) :
    Document.string text ++ rest
      = '"' :: (text.toList.flatMap Document.escapeChar ++ '"' :: rest) :=
  List.append_assoc ('"' :: _) _ rest

theorem skipBlanks_string (text : String) (rest : List Char) :
    skipBlanks (' ' :: Document.string text ++ rest)
      = '"' :: (text.toList.flatMap Document.escapeChar ++ '"' :: rest) := by
  rw [List.cons_append, string_append]
  rfl

theorem reads_text (name text : String) :
    Reads (readText name) (Document.string text) (.ok text) := by
  intro rest hrest
  rw [readText, skipBlanks_string]
  simp only [readString_escaped, Except.map, String.ofList_toList]

theorem reads_choice {α : Type} {values : List α} {name : α → String} {value : α}
    (h : choose values name (name value) = .ok value) :
    Reads (readChoice values name) (Document.string (name value)) (.ok value) := by
  intro rest hrest
  rw [readChoice, skipBlanks_string]
  simp only [readString_escaped, Except.map, String.ofList_toList, h]

theorem reads_single {x : Float32} (hx : x.isFinite = true) :
    Reads readSingle (Document.number x) (.ok x) :=
  fun _ hrest => readSingle_number hx hrest.stops

/-- A number that is not finite is written as a word that no number is read from. -/
theorem reads_single_of_not_finite {x : Float32} (hx : x.isFinite = false) :
    Reads readSingle (Document.number x) (.error (.invalidType .null "f32")) := by
  intro rest _
  rw [Document.number, hx, if_neg Bool.false_ne_true]
  rfl

/-! ## Records -/

section

variable {α : Type} {fields : List (FieldReader α)} {seen : List String} {record next : α}
  {outcome : Except Fault α} {key : String} {value : List Char} {field : FieldReader α}
  {entries : List (String × List Char)}

/-- Whether a key is the one of a field and has not been seen. -/
structure Expects (fields : List (FieldReader α)) (seen : List String) (key : String)
    (field : FieldReader α) : Prop where
  field : fields.find? (fun field => field.key == key) = some field
  new : seen.contains key = false

/-- What written members make of a record: the record that the last of them leaves, or the fault of
    the first that has one. -/
inductive Fills (fields : List (FieldReader α)) :
    List String → α → List (String × List Char) → Except Fault α → Prop
  | last {seen : List String} {record : α} {key : String} {value : List Char}
    {field : FieldReader α} {outcome : Except Fault α} (hkey : Expects fields seen key field)
    (hread : Reads (field.read record) value outcome) :
    Fills fields seen record [(key, value)] outcome
  | next {seen : List String} {record next : α} {key : String} {value : List Char}
    {field : FieldReader α} {entries : List (String × List Char)} {outcome : Except Fault α}
    (hkey : Expects fields seen key field) (hread : Reads (field.read record) value (.ok next))
    (hrest : Fills fields (key :: seen) next entries outcome) :
    Fills fields seen record ((key, value) :: entries) outcome
  | fault {seen : List String} {record : α} {key : String} {value : List Char}
    {field : FieldReader α} {entry : String × List Char} {entries : List (String × List Char)}
    {fault : Fault} (hkey : Expects fields seen key field)
    (hread : Reads (field.read record) value (.error fault)) :
    Fills fields seen record ((key, value) :: entry :: entries) (.error fault)

theorem Fills.ne_nil (h : Fills fields seen record entries outcome) : entries ≠ [] := by
  cases h <;> exact List.cons_ne_nil _ _

theorem skipBlanks_newline (depth : ℕ) (cs : List Char) :
    skipBlanks (Document.newline depth ++ cs) = skipBlanks cs := by
  have hblanks : Blanks (Document.newline depth) := by
    intro c hc
    obtain rfl | hc := List.mem_cons.1 hc
    · rfl
    · rw [List.eq_of_mem_replicate hc]
      rfl
  exact hblanks.skipBlanks_append cs

/-! ### One member -/

/-- The text of a member behind its opening quote. -/
def memberText (key : String) (value : List Char) : List Char :=
  key.toList.flatMap Document.escapeChar ++ '"' :: ':' :: ' ' :: value

theorem members_singleton (depth : ℕ) (key : String) (value : List Char) :
    Document.members depth [(key, value)]
      = Document.newline depth ++ '"' :: memberText key value := by
  have hcolon : ": ".toList = [':', ' '] := rfl
  rw [Document.members, List.append_assoc, List.append_assoc, string_append, hcolon]
  rfl

theorem members_cons (depth : ℕ) (key : String) (value : List Char) (hne : entries ≠ []) :
    Document.members depth ((key, value) :: entries)
      = Document.newline depth ++ '"' :: (memberText key value ++ ',' ::
          Document.members depth entries) := by
  have hcolon : ": ".toList = [':', ' '] := rfl
  rw [Document.members, List.append_assoc, List.append_assoc, List.append_assoc, string_append,
    hcolon, memberText, List.append_assoc]
  · rfl
  · exact hne

theorem readMember_memberText {rest : List Char} (hkey : Expects fields seen key field)
    (hread : Reads (field.read record) value outcome) (hrest : Closes rest) :
    readMember fields seen record (memberText key value ++ rest)
      = outcome.map fun next => ((key :: seen, next), rest) := by
  have hcolon : skipColon (':' :: ' ' :: value ++ rest) = .ok (' ' :: value ++ rest) := rfl
  rw [readMember, memberText, List.append_assoc, List.cons_append, readString_escaped]
  simp only [String.ofList_toList, hkey.field, hkey.new, Bool.false_eq_true, if_false, hcolon,
    hread rest hrest]
  cases outcome <;> rfl

theorem readMembers_last (hkey : Expects fields seen key field)
    (hread : Reads (field.read record) value outcome) (fuel outer : ℕ) (rest : List Char) :
    readMembers fields (fuel + 1) seen record
        (memberText key value ++ (Document.newline outer ++ '\x7d' :: rest))
      = outcome.map fun final => (final, rest) := by
  rw [readMembers, readMember_memberText hkey hread (closes_newline ..)]
  cases outcome with
  | error fault => rfl
  | ok final =>
    simp only [Except.map, skipBlanks_newline]
    rfl

theorem readMembers_next (hkey : Expects fields seen key field)
    (hread : Reads (field.read record) value (.ok next)) (fuel depth : ℕ) (text : List Char) :
    readMembers fields (fuel + 1) seen record
        (memberText key value ++ ',' :: (Document.newline depth ++ '"' :: text))
      = readMembers fields fuel (key :: seen) next text := by
  rw [readMembers, readMember_memberText hkey hread (closes_comma _)]
  simp only [Except.map, skipBlanks_comma, skipBlanks_newline, skipBlanks_quote]

theorem readMembers_fault {fault : Fault} (hkey : Expects fields seen key field)
    (hread : Reads (field.read record) value (.error fault)) (fuel : ℕ) (text : List Char) :
    readMembers fields (fuel + 1) seen record (memberText key value ++ ',' :: text)
      = .error fault := by
  rw [readMembers, readMember_memberText hkey hread (closes_comma _)]
  rfl

/-! ### All members -/

theorem two_le_length_memberText (key : String) (value : List Char) :
    2 ≤ (memberText key value).length := by
  rw [memberText, List.length_append]
  simp only [List.length_cons]
  omega

theorem length_le_members (depth : ℕ) (entries : List (String × List Char)) :
    entries.length ≤ (Document.members depth entries).length := by
  induction entries with
  | nil => exact Nat.zero_le _
  | cons entry entries ih =>
    by_cases hlast : entries = []
    · subst hlast
      rw [members_singleton, List.length_append, List.length_cons, List.length_cons]
      exact Nat.le_add_left_of_le (Nat.succ_le_succ (Nat.zero_le _))
    · rw [members_cons depth entry.1 entry.2 hlast]
      simp only [List.length_cons, List.length_append]
      omega

/-- Every member has a character of its own behind the first quote. -/
theorem length_le_of_members_eq {depth : ℕ} {text : List Char}
    (h : Document.members depth entries = Document.newline depth ++ '"' :: text) :
    entries.length ≤ text.length := by
  cases entries with
  | nil => exact Nat.zero_le _
  | cons entry entries =>
    have htwo := two_le_length_memberText entry.1 entry.2
    by_cases hlast : entries = []
    · subst hlast
      rw [members_singleton] at h
      obtain rfl := (List.cons.inj (List.append_cancel_left h)).2
      rw [List.length_singleton]
      omega
    · have hrest := length_le_members depth entries
      rw [members_cons depth entry.1 entry.2 hlast] at h
      obtain rfl := (List.cons.inj (List.append_cancel_left h)).2
      simp only [List.length_cons, List.length_append]
      omega

/-- Written members are read one by one, each up to what closes it. The first quote has been
    passed. -/
theorem Fills.readMembers_members (h : Fills fields seen record entries outcome)
    (depth outer : ℕ) (rest : List Char) :
    ∃ text, Document.members depth entries = Document.newline depth ++ '"' :: text ∧
      ∀ fuel, entries.length ≤ fuel →
      readMembers fields fuel seen record (text ++ (Document.newline outer ++ '\x7d' :: rest))
        = outcome.map fun final => (final, rest) := by
  induction h with
  | last hkey hread =>
    refine ⟨_, members_singleton depth _ _, fun fuel hfuel => ?_⟩
    obtain ⟨fuel, rfl⟩ := Nat.exists_eq_add_of_le' hfuel
    exact readMembers_last hkey hread fuel outer rest
  | next hkey hread hrest ih =>
    obtain ⟨text, htext, hih⟩ := ih
    refine ⟨_, members_cons depth _ _ hrest.ne_nil, fun fuel hfuel => ?_⟩
    obtain ⟨fuel, rfl⟩ : ∃ m, fuel = m + 1 :=
      Nat.exists_eq_add_of_le' (le_trans (Nat.le_add_left 1 _) hfuel)
    rw [List.append_assoc, List.cons_append, htext, List.append_assoc, List.cons_append,
      readMembers_next hkey hread]
    exact hih fuel (Nat.le_of_succ_le_succ hfuel)
  | fault hkey hread =>
    refine ⟨_, members_cons depth _ _ (List.cons_ne_nil _ _), fun fuel hfuel => ?_⟩
    obtain ⟨fuel, rfl⟩ : ∃ m, fuel = m + 1 :=
      Nat.exists_eq_add_of_le' (le_trans (Nat.le_add_left 1 _) hfuel)
    rw [List.append_assoc, List.cons_append]
    exact readMembers_fault hkey hread fuel _

/-- A written object is read as what its members make of the record at its start. -/
theorem Fills.readRecord_object (h : Fills fields [] record entries outcome) (name : String)
    (depth : ℕ) (rest : List Char) :
    readRecord name fields record (Document.object depth entries ++ rest)
      = outcome.map fun final => (final, rest) := by
  obtain ⟨text, htext, hread⟩ := h.readMembers_members depth (depth - 1) rest
  have hobject : Document.object depth entries ++ rest
      = '\x7b' :: (Document.newline depth ++
          '"' :: (text ++ (Document.newline (depth - 1) ++ '\x7d' :: rest))) := by
    simp [Document.object, htext]
  have hlen := length_le_of_members_eq htext
  rw [readRecord, hobject, skipBlanks_opening]
  show readObject fields record _ = _
  rw [readObject, skipBlanks_newline, skipBlanks_quote]
  refine hread _ ?_
  rw [List.length_append]
  omega

theorem Fills.reads (h : Fills fields [] record entries outcome) (name : String) (depth : ℕ) :
    Reads (readRecord name fields record) (Document.object depth entries) outcome :=
  fun rest _ => h.readRecord_object name depth rest

end

/-! ## What is read -/

section

variable {α β : Type} {P : α → Prop} {Q : β → Prop} {fields : List (FieldReader α)}

/-- Whether every value that is read has a property. -/
def Yields (read : Reader β) (Q : β → Prop) : Prop :=
  ∀ ⦃cs b rest⦄, read cs = .ok (b, rest) → Q b

/-- Whether a property of a record outlasts the reading of a field. -/
def FieldReader.Keeps (field : FieldReader α) (P : α → Prop) : Prop :=
  ∀ ⦃record⦄, P record → Yields (field.read record) P

theorem map_eq_ok {ε α β : Type} {f : α → β} {x : Except ε α} {b : β} (h : x.map f = .ok b) :
    ∃ a, x = .ok a ∧ f a = b := by
  cases x with
  | error e => cases h
  | ok a => exact ⟨a, rfl, Except.ok.inj h⟩

theorem FieldReader.keeps_of {read : Reader β} {store : α → β → α} (key : String)
    (hread : Yields read Q) (hstore : ∀ record b, P record → Q b → P (store record b)) :
    (FieldReader.of key read store).Keeps P := by
  intro record hrecord cs record' rest h
  obtain ⟨⟨b, after⟩, hb, hstored⟩ := map_eq_ok h
  cases hstored
  exact hstore record b hrecord (hread hb)

theorem FieldReader.keeps_of_store {store : α → β → α} (key : String) (read : Reader β)
    (hstore : ∀ record b, P record → P (store record b)) :
    (FieldReader.of key read store).Keeps P :=
  FieldReader.keeps_of (Q := fun _ => True) key (fun _ _ _ _ => trivial)
    fun record b hrecord _ => hstore record b hrecord

variable (hfields : ∀ field ∈ fields, field.Keeps P)

include hfields

theorem readMember_keeps {seen seen' : List String} {record record' : α} {cs rest : List Char}
    (hrecord : P record) (h : readMember fields seen record cs = .ok ((seen', record'), rest)) :
    P record' := by
  unfold readMember at h
  split at h
  · cases h
  · next chars after hkey =>
    simp only at h
    split at h
    · next field hfield =>
      split at h
      · cases h
      · split at h
        · cases h
        · obtain ⟨⟨next, after⟩, hnext, heq⟩ := map_eq_ok h
          cases heq
          exact hfields field (List.mem_of_find?_eq_some hfield) hrecord hnext
    · split at h
      · cases h
      · obtain ⟨after, hafter, heq⟩ := map_eq_ok h
        cases heq
        exact hrecord

theorem readMembers_keeps {fuel : ℕ} {seen : List String} {record : α} (hrecord : P record) :
    Yields (readMembers fields fuel seen record) P := by
  induction fuel generalizing seen record with
  | zero => intro cs b rest h; cases h
  | succ fuel ih =>
    intro cs b rest h
    rw [readMembers] at h
    split at h
    · cases h
    · next seen' next after hmember =>
      have hnext := readMember_keeps hfields hrecord hmember
      split at h
      · cases h
        exact hnext
      · split at h
        · exact ih hnext h
        all_goals cases h
      all_goals cases h

omit hfields in
theorem readListEnd_keeps {record : α} (hrecord : P record) : Yields (readListEnd record) P := by
  intro cs b rest h
  unfold readListEnd at h
  split at h
  · cases h
    exact hrecord
  · split at h <;> cases h
  all_goals cases h

theorem readItems_keeps {record : α} (hrecord : P record) :
    Yields (readItems fields record) P := by
  induction fields generalizing record with
  | nil => exact readListEnd_keeps hrecord
  | cons field fields ih =>
    intro cs b rest h
    rw [readItems] at h
    split at h
    · cases h
      exact hrecord
    · split at h
      · cases h
      · cases h
      · split at h
        · cases h
        · next next after hnext =>
          exact ih (fun f hf => hfields f (List.mem_cons_of_mem _ hf))
            (hfields field (List.mem_cons_self ..) hrecord hnext) h
    all_goals cases h

theorem readList_keeps {record : α} (hrecord : P record) : Yields (readList fields record) P := by
  intro cs b rest h
  cases fields with
  | nil => exact readListEnd_keeps hrecord h
  | cons field fields =>
    unfold readList at h
    simp only at h
    split at h
    · cases h
      exact hrecord
    · cases h
    · split at h
      · cases h
      · next next after hnext =>
        exact readItems_keeps (fun f hf => hfields f (List.mem_cons_of_mem _ hf))
          (hfields field (List.mem_cons_self ..) hrecord hnext) h

theorem readObject_keeps {record : α} (hrecord : P record) :
    Yields (readObject fields record) P := by
  intro cs b rest h
  unfold readObject at h
  split at h
  · cases h
    exact hrecord
  · exact readMembers_keeps hfields hrecord h
  all_goals cases h

/-- A property of the record at its start that every field keeps holds of what is read. -/
theorem readRecord_keeps (name : String) {record : α} (hrecord : P record) :
    Yields (readRecord name fields record) P := by
  intro cs b rest h
  unfold readRecord at h
  split at h
  · cases h
  · exact readList_keeps hfields hrecord h
  · exact readObject_keeps hfields hrecord h
  · cases h

end

end Relief.Json
