import Relief.Proofs.Values
import Mathlib.Data.Finset.Insert

set_option autoImplicit false

/-! # Members: an object is read member by member

Reading an object amounts to taking its members one by one (`take`, `fill`): a key that no field has
leaves the record as it is, a second member of a field is refused, and any other puts its own reading
into the record (`readRecord_isObject`). So the order of the members does not matter where the fields
commute (`fill_perm`), a member with an unknown key makes no difference (`fill_unknown`), and a part
of the record that one field alone touches is the reading of that field's value, or what it was at
the start (`Owns.reading`). -/

namespace Relief.Json

/-! ## One member -/

section

variable {α β : Type}

/-- Whether a field makes of a text what its own reading of it says. -/
structure FieldReader.Fits (field : FieldReader α) (cs : List Char) : Prop where
  skipsBlanks : ∀ record, SkipsBlanks (field.read record)
  settles : ∀ record, Settles (field.read record) cs

theorem FieldReader.fits_of {read : Reader β} {cs : List Char} (hblanks : SkipsBlanks read)
    (h : Settles read cs) (key : String) (store : α → β → α) :
    (FieldReader.of key read store).Fits cs :=
  ⟨fun record => hblanks.map (store record), fun record => h.map (store record)⟩

theorem own_of (key : String) (read : Reader β) (store : α → β → α) (record : α)
    (cs : List Char) :
    own ((FieldReader.of key read store).read record) cs = (own read cs).map (store record) :=
  own_map read (store record) cs

theorem own_of_congr {read : Reader β} {cs cs' : List Char} (h : own read cs = own read cs')
    (key : String) (store : α → β → α) (record : α) :
    own ((FieldReader.of key read store).read record) cs
      = own ((FieldReader.of key read store).read record) cs' := by
  rw [own_of, own_of, h]

/-- The field of a key. -/
def fieldOf? (fields : List (FieldReader α)) (key : String) : Option (FieldReader α) :=
  fields.find? fun field => field.key == key

theorem fieldOf?_cons_self (field : FieldReader α) (fields : List (FieldReader α)) :
    fieldOf? (field :: fields) field.key = some field := by
  rw [fieldOf?, List.find?_cons, beq_self_eq_true]

theorem fieldOf?_cons_of_ne {field : FieldReader α} {key : String} (h : field.key ≠ key)
    (fields : List (FieldReader α)) : fieldOf? (field :: fields) key = fieldOf? fields key := by
  rw [fieldOf?, List.find?_cons, beq_false_of_ne h]
  rfl

/-- Takes a value into the field of its key, if there is one, and the key to those that were
    seen. -/
def takeValue (field? : Option (FieldReader α)) (key : String) (cs : List Char)
    (state : Finset String × α) : Option (Finset String × α) :=
  match field? with
  | none => some state
  | some field =>
    if key ∈ state.1 then none
    else (own (field.read state.2) cs).map fun next => (insert key state.1, next)

/-- Takes a member into a record. -/
def take (fields : List (FieldReader α)) (state : Finset String × α) (m : Member) :
    Option (Finset String × α) :=
  (keyOf? m.1).bind fun key => takeValue (fieldOf? fields key) key m.2 state

/-- Whether the field of a member, if there is one, fits its value. -/
def Suits (fields : List (FieldReader α)) (m : Member) : Prop :=
  ∀ key field, keyOf? m.1 = some key → fieldOf? fields key = some field → field.Fits m.2

variable {fields : List (FieldReader α)} {raw bs bs' cs rest : List Char}

/-- Reading a member takes it. -/
theorem readMember_take (hraw : IsQuoted raw) (hbs : Blanks bs) (hbs' : Blanks bs')
    (h : IsValue cs) (hsuits : Suits fields (raw, cs)) (hrest : Stops rest) (seen : List String)
    (record : α) :
    (∃ seen' next, readMember fields seen record
        (raw ++ '"' :: (bs ++ ':' :: (bs' ++ (cs ++ rest)))) = .ok ((seen', next), rest) ∧
      take fields (seen.toFinset, record) (raw, cs) = some (seen'.toFinset, next)) ∨
    (∃ fault, readMember fields seen record
        (raw ++ '"' :: (bs ++ ':' :: (bs' ++ (cs ++ rest)))) = .error fault ∧
      take fields (seen.toFinset, record) (raw, cs) = none) := by
  have hafter : Stops (bs ++ ':' :: (bs' ++ (cs ++ rest))) := stops_append hbs stops_colon
  have hquote : raw ++ '"' :: (bs ++ ':' :: (bs' ++ (cs ++ rest)))
      = raw ++ ['"'] ++ (bs ++ ':' :: (bs' ++ (cs ++ rest))) := by
    rw [List.append_assoc]
    rfl
  unfold readMember take
  rw [hquote]
  dsimp only
  rcases hraw.settles.cases hafter with ⟨text, hread, hown⟩ | ⟨fault, hread, hown⟩
  · have hkey : keyOf? raw = some (String.ofList text) := by rw [keyOf?, hown]; rfl
    rw [hread, hkey]
    simp only [Option.bind_some, skipColon_append hbs]
    cases hfield : fieldOf? fields (String.ofList text) with
    | none =>
      rw [fieldOf?] at hfield
      simp only [hfield, h.skipValue_append hbs' hrest]
      exact .inl ⟨seen, record, rfl, rfl⟩
    | some field =>
      obtain ⟨hblanks, hsettles⟩ := hsuits _ field hkey hfield
      rw [fieldOf?] at hfield
      simp only [hfield, takeValue, List.contains_eq_mem, decide_eq_true_eq, List.mem_toFinset,
        hblanks record _ _ hbs']
      split
      · exact .inr ⟨_, rfl, rfl⟩
      · have hcases := (hsettles record).cases hrest
        rcases hcases with ⟨next, hnext, hown⟩ | ⟨fault, hnext, hown⟩
        · rw [hnext, hown]
          refine .inl ⟨_, next, rfl, ?_⟩
          rw [List.toFinset_cons]
          rfl
        · rw [hnext, hown]
          exact .inr ⟨fault, rfl, rfl⟩
  · have hkey : keyOf? raw = none := by rw [keyOf?, hown]; rfl
    rw [hread, hkey]
    exact .inr ⟨fault, rfl, rfl⟩

end

/-! ## All members -/

section

variable {α : Type} {fields : List (FieldReader α)} {members : List Member}

/-- What the members of an object make of a record. -/
def fill (fields : List (FieldReader α)) (record : α) (members : List Member) : Option α :=
  (members.foldlM (take fields) (∅, record)).map Prod.snd

/-- Reads what follows a member: the end, or more members. -/
def afterMember (fields : List (FieldReader α)) (fuel : ℕ) (seen : List String) (record : α) :
    Reader α := fun cs =>
  match skipBlanks cs with
  | '\x7d' :: rest => .ok (record, rest)
  | ',' :: rest =>
    match skipBlanks rest with
    | '"' :: rest => readMembers fields fuel seen record rest
    | '\x7d' :: _ => .error .trailingComma
    | _ :: _ => .error .keyMustBeString
    | [] => .error .endInValue
  | _ :: _ => .error .expectedObjectCommaOrEnd
  | [] => .error .endInObject

section

variable {raw bs bs' cs rest : List Char}

theorem readMembers_toOption (hraw : IsQuoted raw) (hbs : Blanks bs) (hbs' : Blanks bs')
    (h : IsValue cs) (hsuits : Suits fields (raw, cs)) (hrest : Stops rest) (fuel : ℕ)
    (seen : List String) (record : α) (outcome : Finset String × α → Option (α × List Char))
    (hafter : ∀ seen' next, (afterMember fields fuel seen' next rest).toOption
      = outcome (seen'.toFinset, next)) :
    (readMembers fields (fuel + 1) seen record
        (raw ++ '"' :: (bs ++ ':' :: (bs' ++ (cs ++ rest))))).toOption
      = (take fields (seen.toFinset, record) (raw, cs)).bind outcome := by
  rcases readMember_take hraw hbs hbs' h hsuits hrest seen record with
    ⟨seen', next, hread, htake⟩ | ⟨fault, hread, htake⟩
  · rw [readMembers, hread, htake, Option.bind_some, ← hafter]
    rfl
  · rw [readMembers, hread, htake]
    rfl

theorem afterMember_close (hbs : Blanks bs) (fuel : ℕ) (seen : List String) (record : α)
    (rest : List Char) :
    afterMember fields fuel seen record (bs ++ '\x7d' :: rest) = .ok (record, rest) := by
  rw [afterMember, hbs.skipBlanks_append]
  rfl

theorem afterMember_comma (hbs : Blanks bs) (hbs' : Blanks bs') (fuel : ℕ) (seen : List String)
    (record : α) (rest : List Char) :
    afterMember fields fuel seen record (bs ++ ',' :: (bs' ++ '"' :: rest))
      = readMembers fields fuel seen record rest := by
  unfold afterMember
  rw [hbs.skipBlanks_append, skipBlanks_comma]
  simp only [hbs'.skipBlanks_append, skipBlanks_quote]

end

/-- Members are taken one by one. The first quote has been passed. -/
theorem IsMembers.readMembers_append {cs : List Char} (h : IsMembers members cs)
    (hsuits : ∀ m ∈ members, Suits fields m) :
    ∃ bs inner, Blanks bs ∧ cs = bs ++ '"' :: inner ∧ members.length ≤ inner.length ∧
      ∀ fuel seen record rest, members.length ≤ fuel →
        (readMembers fields fuel seen record (inner ++ '\x7d' :: rest)).toOption
          = (members.foldlM (take fields) (seen.toFinset, record)).map
              fun state => (state.2, rest) := by
  induction h with
  | @last raw front cs bs hkey h hbs =>
    obtain @⟨bs₀, bs₁, bs₂, hbs₀, hraw, hbs₁, hbs₂⟩ := hkey
    refine ⟨bs₀, raw ++ '"' :: (bs₁ ++ ':' :: (bs₂ ++ (cs ++ bs))), hbs₀, by simp, ?_,
      fun fuel seen record rest hfuel => ?_⟩
    · rw [List.length_singleton, List.length_append, List.length_cons]
      omega
    · obtain ⟨fuel, rfl⟩ : ∃ n, fuel = n + 1 := Nat.exists_eq_add_of_le' hfuel
      have hstops : Stops (bs ++ '\x7d' :: rest) := stops_append hbs (stops_close .object)
      have hsuits := hsuits (raw, cs) (List.mem_cons_self ..)
      simp only [List.append_assoc, List.cons_append, List.foldlM_cons, List.foldlM_nil]
      have hread := readMembers_toOption hraw hbs₁ hbs₂ h hsuits hstops fuel seen record
        (fun state => some (state.2, rest)) fun seen' next => by rw [afterMember_close hbs]; rfl
      rw [hread]
      cases take fields (seen.toFinset, record) (raw, cs) <;> rfl
  | @next raw front cs bs more members hkey h hbs hmore ih =>
    obtain @⟨bs₀, bs₁, bs₂, hbs₀, hraw, hbs₁, hbs₂⟩ := hkey
    obtain ⟨bs₃, inner, hbs₃, rfl, hlen, hread⟩ :=
      ih fun m hm => hsuits m (List.mem_cons_of_mem _ hm)
    refine ⟨bs₀,
      raw ++ '"' :: (bs₁ ++ ':' :: (bs₂ ++ (cs ++ (bs ++ ',' :: (bs₃ ++ '"' :: inner))))),
      hbs₀, by simp, ?_, fun fuel seen record rest hfuel => ?_⟩
    · simp only [List.length_cons, List.length_append]
      omega
    · obtain ⟨fuel, rfl⟩ : ∃ n, fuel = n + 1 := Nat.exists_eq_add_of_le' (by
        rw [List.length_cons] at hfuel
        omega)
      have hstops : Stops (bs ++ ',' :: (bs₃ ++ '"' :: (inner ++ '\x7d' :: rest))) :=
        stops_append hbs stops_comma
      have hsuits := hsuits (raw, cs) (List.mem_cons_self ..)
      simp only [List.append_assoc, List.cons_append, List.foldlM_cons]
      have hread := readMembers_toOption hraw hbs₁ hbs₂ h hsuits hstops fuel seen record
        (fun state => (members.foldlM (take fields) state).map fun state => (state.2, rest))
        fun seen' next => by
          rw [afterMember_comma hbs hbs₃]
          exact hread fuel seen' next rest (Nat.le_of_succ_le_succ hfuel)
      rw [hread]
      cases take fields (seen.toFinset, record) (raw, cs) <;> rfl

/-- **An object is read as what its members make of the record.** -/
theorem readRecord_isObject {cs : List Char} (h : IsObject members cs)
    (hsuits : ∀ m ∈ members, Suits fields m) (name : String) (record : α) :
    Settles (readRecord name fields record) cs ∧
      own (readRecord name fields record) cs = fill fields record members := by
  refine settles_of_toOption fun rest hrest => ?_
  have hopen : ∀ cs, readRecord name fields record ('\x7b' :: cs) = readObject fields record cs :=
    fun _ => rfl
  cases h with
  | empty hbs =>
    rw [List.cons_append, List.append_assoc, hopen, readObject, hbs.skipBlanks_append]
    rfl
  | members h =>
    obtain ⟨bs, inner, hbs, rfl, hlen, hread⟩ := h.readMembers_append hsuits
    simp only [List.cons_append, List.append_assoc, List.nil_append, hopen]
    rw [readObject, hbs.skipBlanks_append, skipBlanks_quote]
    refine (hread _ [] record rest ?_).trans ?_
    · rw [List.length_append]
      omega
    · rw [fill, Option.map_map]
      rfl

end

/-! ## The order of members -/

section

variable {α β γ : Type} {fields : List (FieldReader α)} {members members' : List Member}

/-- Whether it does not matter which of two fields is read first. -/
def Commutes (f g : FieldReader α) : Prop :=
  ∀ record cs cs', (own (f.read record) cs).bind (fun next => own (g.read next) cs')
    = (own (g.read record) cs').bind fun next => own (f.read next) cs

instance : Std.Symm (Commutes (α := α)) := ⟨fun _ _ h record cs cs' => (h record cs' cs).symm⟩

theorem commutes_of {key key' : String} {read : Reader β} {read' : Reader γ}
    {store : α → β → α} {store' : α → γ → α}
    (h : ∀ record b c, store' (store record b) c = store (store' record c) b) :
    Commutes (.of key read store) (.of key' read' store') := by
  intro record cs cs'
  simp only [own_of]
  cases own read cs with
  | none => cases own read' cs' <;> rfl
  | some b =>
    cases own read' cs' with
    | none => rfl
    | some c => exact congrArg some (h record b c)

theorem mem_of_fieldOf? {key : String} {field : FieldReader α}
    (h : fieldOf? fields key = some field) : field ∈ fields ∧ field.key = key := by
  have hkey := List.find?_some h
  exact ⟨List.mem_of_find?_eq_some h, eq_of_beq hkey⟩

theorem takeValue_none (key : String) (cs : List Char) (state : Finset String × α) :
    takeValue none key cs state = some state := rfl

theorem takeValue_seen {field : FieldReader α} {key : String} {state : Finset String × α}
    (h : key ∈ state.1) (cs : List Char) : takeValue (some field) key cs state = none :=
  if_pos h

theorem takeValue_unseen {field : FieldReader α} {key : String} {state : Finset String × α}
    (h : key ∉ state.1) (cs : List Char) :
    takeValue (some field) key cs state
      = (own (field.read state.2) cs).map fun next => (insert key state.1, next) :=
  if_neg h

/-- A key that was seen is not forgotten. -/
theorem takeValue_seen_after {f g : FieldReader α} {key : String} {state : Finset String × α}
    (h : key ∈ state.1) (key' : String) (cs cs' : List Char) :
    (takeValue (some g) key' cs' state).bind (takeValue (some f) key cs) = none := by
  by_cases hseen : key' ∈ state.1
  · rw [takeValue_seen hseen, Option.bind_none]
  · rw [takeValue_unseen hseen]
    cases own (g.read state.2) cs' with
    | none => rfl
    | some next => exact takeValue_seen (Finset.mem_insert_of_mem h) cs

/-- A second value for a field is refused. -/
theorem takeValue_twice (field : FieldReader α) (key : String) (cs cs' : List Char)
    (state : Finset String × α) :
    (takeValue (some field) key cs state).bind (takeValue (some field) key cs') = none := by
  by_cases hseen : key ∈ state.1
  · rw [takeValue_seen hseen, Option.bind_none]
  · rw [takeValue_unseen hseen]
    cases own (field.read state.2) cs with
    | none => rfl
    | some next => exact takeValue_seen (Finset.mem_insert_self ..) cs'

/-- Values of fields that commute may be taken in either order. -/
theorem takeValue_comm {f g : FieldReader α} (h : Commutes f g) {key key' : String}
    (hne : key ≠ key') (cs cs' : List Char) (state : Finset String × α) :
    (takeValue (some f) key cs state).bind (takeValue (some g) key' cs')
      = (takeValue (some g) key' cs' state).bind (takeValue (some f) key cs) := by
  by_cases hseen : key ∈ state.1
  · rw [takeValue_seen hseen, takeValue_seen_after hseen, Option.bind_none]
  by_cases hseen' : key' ∈ state.1
  · rw [takeValue_seen hseen', takeValue_seen_after hseen', Option.bind_none]
  have hboth : ∀ (f g : FieldReader α) (key key' : String) (cs cs' : List Char), key ≠ key' →
      key ∉ state.1 → key' ∉ state.1 →
      (takeValue (some f) key cs state).bind (takeValue (some g) key' cs')
        = ((own (f.read state.2) cs).bind fun next => own (g.read next) cs').map
            fun next => (insert key' (insert key state.1), next) := by
    intro f g key key' cs cs' hne hseen hseen'
    rw [takeValue_unseen hseen]
    cases own (f.read state.2) cs with
    | none => rfl
    | some next =>
      have hunseen : key' ∉ insert key state.1 := fun hmem =>
        (Finset.mem_insert.1 hmem).elim hne.symm hseen'
      exact takeValue_unseen hunseen cs'
  rw [hboth f g key key' cs cs' hne hseen hseen', hboth g f key' key cs' cs hne.symm hseen' hseen,
    h, Finset.insert_comm]

variable (hfields : fields.Pairwise Commutes)

include hfields

/-- Members may be taken in either order. -/
theorem take_comm (state : Finset String × α) (m m' : Member) :
    (take fields state m).bind (fun next => take fields next m')
      = (take fields state m').bind fun next => take fields next m := by
  unfold take
  cases keyOf? m.1 with
  | none => cases (keyOf? m'.1).bind _ <;> rfl
  | some key =>
    cases keyOf? m'.1 with
    | none => simp only [Option.bind_none, Option.bind_fun_none]
    | some key' =>
      simp only [Option.bind_some]
      cases hf : fieldOf? fields key with
      | none => simp only [takeValue_none, Option.bind_some, Option.bind_fun_some]
      | some f =>
        cases hg : fieldOf? fields key' with
        | none => simp only [takeValue_none, Option.bind_some, Option.bind_fun_some]
        | some g =>
          by_cases hkey : key = key'
          · subst hkey
            cases hf.symm.trans hg
            rw [takeValue_twice, takeValue_twice]
          · obtain ⟨hfmem, hfkey⟩ := mem_of_fieldOf? hf
            obtain ⟨hgmem, hgkey⟩ := mem_of_fieldOf? hg
            have hne : f ≠ g := by
              rintro rfl
              exact hkey (hfkey.symm.trans hgkey)
            exact takeValue_comm (hfields.forall hfmem hgmem hne) hkey m.2 m'.2 state

/-- The order of the members does not matter. -/
theorem fill_perm (h : members.Perm members') (record : α) :
    fill fields record members = fill fields record members' := by
  have hfold : ∀ state, members.foldlM (take fields) state
      = members'.foldlM (take fields) state := by
    induction h with
    | nil => exact fun state => rfl
    | cons m h ih =>
      intro state
      simp only [List.foldlM_cons, ih]
    | swap m m' ms =>
      intro state
      simp only [List.foldlM_cons, ← bind_assoc]
      exact congrArg (· >>= fun state => ms.foldlM (take fields) state)
        (take_comm hfields state m' m)
    | trans h h' ih ih' => exact fun state => (ih state).trans (ih' state)
  rw [fill, fill, hfold]

end

/-! ## Values and unknown members -/

section

variable {α : Type} {fields : List (FieldReader α)} {raw : List Char} {key : String}

theorem take_congr {cs cs' : List Char}
    (h : ∀ key field, keyOf? raw = some key → fieldOf? fields key = some field →
      ∀ record, own (field.read record) cs = own (field.read record) cs')
    (state : Finset String × α) : take fields state (raw, cs) = take fields state (raw, cs') := by
  unfold take
  dsimp only
  cases hkey : keyOf? raw with
  | none => rfl
  | some key =>
    cases hfield : fieldOf? fields key with
    | none => simp only [Option.bind_some, hfield, takeValue_none]
    | some field => simp only [Option.bind_some, hfield, takeValue, h key field hkey hfield]

/-- A value may be replaced by one that the field of its key reads in the same way. -/
theorem fill_congr {cs cs' : List Char}
    (h : ∀ key field, keyOf? raw = some key → fieldOf? fields key = some field →
      ∀ record, own (field.read record) cs = own (field.read record) cs')
    (front back : List Member) (record : α) :
    fill fields record (front ++ (raw, cs) :: back)
      = fill fields record (front ++ (raw, cs') :: back) := by
  have htake := take_congr h
  simp only [fill, List.foldlM_append, List.foldlM_cons, htake]

/-- A member whose key no field has makes no difference. -/
theorem fill_unknown (hkey : keyOf? raw = some key) (hunknown : fieldOf? fields key = none)
    (cs : List Char) (front back : List Member) (record : α) :
    fill fields record (front ++ (raw, cs) :: back) = fill fields record (front ++ back) := by
  have htake : ∀ state, take fields state (raw, cs) = some state := by
    intro state
    unfold take
    rw [hkey, Option.bind_some, hunknown, takeValue_none]
  simp only [fill, List.foldlM_append, List.foldlM_cons, htake, Option.bind_eq_bind,
    Option.bind_some]

end

/-! ## Where a value comes from -/

section

variable {α β : Type} {fields : List (FieldReader α)} {key : String}

/-- The text of the value that a key has, if it has one. -/
def valueOf? (members : List Member) (key : String) : Option (List Char) :=
  (members.find? fun m => keyOf? m.1 == some key).map Prod.snd

theorem valueOf?_cons_of_key {m : Member} (h : keyOf? m.1 = some key) (members : List Member) :
    valueOf? (m :: members) key = some m.2 := by
  rw [valueOf?, List.find?_cons, h, beq_self_eq_true]
  rfl

theorem valueOf?_cons_of_ne {m : Member} (h : keyOf? m.1 ≠ some key) (members : List Member) :
    valueOf? (m :: members) key = valueOf? members key := by
  rw [valueOf?, List.find?_cons, beq_false_of_ne h]
  rfl

/-- What is read for a key: the reading of its own value if it has one, and the standard value
    otherwise. -/
def reading (read : Reader β) (standard : β) (members : List Member) (key : String) : Option β :=
  (valueOf? members key).elim (some standard) (own read)

/-- Whether a field leaves a part of the record as it is. -/
def FieldReader.Leaves (field : FieldReader α) (get : α → β) : Prop :=
  ∀ record cs next, own (field.read record) cs = some next → get next = get record

theorem FieldReader.leaves_of {γ : Type} {get : α → β} {store : α → γ → α} (key : String)
    (read : Reader γ) (h : ∀ record c, get (store record c) = get record) :
    (FieldReader.of key read store).Leaves get := by
  intro record cs next hnext
  rw [own_of] at hnext
  obtain ⟨c, -, rfl⟩ := Option.map_eq_some_iff.1 hnext
  exact h record c

/-- Whether a part of the record is what one field has read, and no other field touches it. -/
structure Owns (fields : List (FieldReader α)) (key : String) (read : Reader β) (get : α → β) :
    Prop where
  field : ∃ field, fieldOf? fields key = some field ∧
    ∀ record cs next, own (field.read record) cs = some next → own read cs = some (get next)
  others : ∀ field ∈ fields, field.key ≠ key → field.Leaves get

theorem reads_of {read : Reader β} {store : α → β → α} {get : α → β}
    (h : ∀ record b, get (store record b) = b) (key : String) (record : α) (cs : List Char)
    (next : α) (hnext : own ((FieldReader.of key read store).read record) cs = some next) :
    own read cs = some (get next) := by
  rw [own_of] at hnext
  obtain ⟨b, hb, rfl⟩ := Option.map_eq_some_iff.1 hnext
  rw [hb, h]

/-- Two fields that are stored apart own what they store. -/
theorem owns_pair {γ : Type} {read : Reader β} {read' : Reader γ} {store : α → β → α}
    {store' : α → γ → α} {get : α → β} {get' : α → γ} {key key' : String} (hne : key ≠ key')
    (hget : ∀ record b, get (store record b) = b ∧ get' (store record b) = get' record)
    (hget' : ∀ record c, get' (store' record c) = c ∧ get (store' record c) = get record) :
    Owns [.of key read store, .of key' read' store'] key read get ∧
      Owns [.of key read store, .of key' read' store'] key' read' get' := by
  have hfirst := fieldOf?_cons_self (.of key read store) [.of key' read' store']
  have hkey : (FieldReader.of key read store).key ≠ key' := hne
  have hsecond := (fieldOf?_cons_of_ne hkey [.of key' read' store']).trans
    (fieldOf?_cons_self (.of key' read' store') [])
  refine ⟨⟨⟨_, hfirst, reads_of (fun record b => (hget record b).1) key⟩, ?_⟩,
    ⟨⟨_, hsecond, reads_of (fun record c => (hget' record c).1) key'⟩, ?_⟩⟩
  · refine List.forall_mem_cons.2 ⟨fun hkey => absurd rfl hkey, ?_⟩
    exact List.forall_mem_singleton.2 fun _ => FieldReader.leaves_of key' read' fun record c =>
      (hget' record c).2
  · refine List.forall_mem_cons.2 ⟨fun _ => FieldReader.leaves_of key read fun record b =>
      (hget record b).2, ?_⟩
    exact List.forall_mem_singleton.2 fun hkey => absurd rfl hkey

variable {read : Reader β} {get : α → β} {state next : Finset String × α} {m : Member}

/-- What taking a member means for a part of the record. -/
theorem Owns.take_cases (h : Owns fields key read get) (htake : take fields state m = some next) :
    (keyOf? m.1 = some key ∧ key ∉ state.1 ∧ own read m.2 = some (get next.2) ∧ key ∈ next.1) ∨
      (keyOf? m.1 ≠ some key ∧ get next.2 = get state.2 ∧ (key ∈ next.1 ↔ key ∈ state.1)) := by
  obtain ⟨key', hkey', hvalue⟩ := Option.bind_eq_some_iff.1 htake
  rw [hkey']
  cases hfield : fieldOf? fields key' with
  | none =>
    rw [hfield, takeValue_none] at hvalue
    cases hvalue
    refine .inr ⟨?_, rfl, Iff.rfl⟩
    rintro ⟨rfl⟩
    obtain ⟨field, hfield', -⟩ := h.field
    rw [hfield] at hfield'
    cases hfield'
  | some field =>
    rw [hfield] at hvalue
    by_cases hseen : key' ∈ state.1
    · rw [takeValue_seen hseen] at hvalue
      cases hvalue
    rw [takeValue_unseen hseen] at hvalue
    obtain ⟨record, hrecord, rfl⟩ := Option.map_eq_some_iff.1 hvalue
    by_cases hkey : key' = key
    · subst hkey
      obtain ⟨field', hfield', hreads⟩ := h.field
      cases hfield.symm.trans hfield'
      exact .inl ⟨rfl, hseen, hreads _ _ _ hrecord, Finset.mem_insert_self ..⟩
    · obtain ⟨hmem, rfl⟩ := mem_of_fieldOf? hfield
      refine .inr ⟨fun heq => hkey (Option.some.inj heq), h.others field hmem hkey _ _ _ hrecord,
        ?_⟩
      exact Finset.mem_insert.trans (or_iff_right (Ne.symm hkey))

/-- What has been read for a key stays. -/
theorem Owns.get_of_seen (h : Owns fields key read get) {members : List Member}
    (hseen : key ∈ state.1) (hfill : members.foldlM (take fields) state = some next) :
    get next.2 = get state.2 := by
  induction members generalizing state with
  | nil =>
    cases hfill
    rfl
  | cons m members ih =>
    obtain ⟨between, htake, hrest⟩ := Option.bind_eq_some_iff.1 hfill
    rcases h.take_cases htake with ⟨-, hunseen, -⟩ | ⟨-, hget, hiff⟩
    · exact absurd hseen hunseen
    · rw [ih (hiff.2 hseen) hrest, hget]

theorem Owns.reading_of_unseen (h : Owns fields key read get) {members : List Member}
    (hunseen : key ∉ state.1) (hfill : members.foldlM (take fields) state = some next) :
    reading read (get state.2) members key = some (get next.2) := by
  induction members generalizing state with
  | nil =>
    cases hfill
    rfl
  | cons m members ih =>
    obtain ⟨between, htake, hrest⟩ := Option.bind_eq_some_iff.1 hfill
    rcases h.take_cases htake with ⟨hkey, -, hown, hseen⟩ | ⟨hkey, hget, hiff⟩
    · rw [reading, valueOf?_cons_of_key hkey, h.get_of_seen hseen hrest]
      exact hown
    · have hreading := ih (fun hmem => hunseen (hiff.1 hmem)) hrest
      rw [hget] at hreading
      rw [reading, valueOf?_cons_of_ne hkey]
      exact hreading

/-- **Each part of a record comes from the member of its key alone**, or stays as it was. -/
theorem Owns.reading (h : Owns fields key read get) {members : List Member} {record final : α}
    (hfill : fill fields record members = some final) :
    reading read (get record) members key = some (get final) := by
  obtain ⟨state, hstate, rfl⟩ := Option.map_eq_some_iff.1 hfill
  exact h.reading_of_unseen (Finset.notMem_empty key) hstate

/-- Where a value comes from: it is the standard one if its key is missing, and otherwise what the
    text of the key's value means. -/
inductive ComesFrom (means : List Char → β → Prop) (standard : β) (members : List Member)
    (key : String) : β → Prop
  | absent (h : valueOf? members key = none) : ComesFrom means standard members key standard
  | given {cs : List Char} {b : β} (h : valueOf? members key = some cs) (hb : means cs b) :
    ComesFrom means standard members key b

theorem comesFrom_of_reading {means : List Char → β → Prop} {standard b : β}
    {members : List Member} (hvalues : ∀ m ∈ members, IsValue m.2)
    (hmeans : ∀ cs b, IsValue cs → own read cs = some b → means cs b)
    (h : reading read standard members key = some b) : ComesFrom means standard members key b := by
  unfold Json.reading at h
  cases hvalue : valueOf? members key with
  | none =>
    rw [hvalue] at h
    cases h
    exact .absent hvalue
  | some cs =>
    obtain ⟨m, hm, rfl⟩ := Option.map_eq_some_iff.1 hvalue
    rw [hvalue] at h
    exact .given hvalue (hmeans m.2 b (hvalues m (List.mem_of_find?_eq_some hm)) h)

end

end Relief.Json
