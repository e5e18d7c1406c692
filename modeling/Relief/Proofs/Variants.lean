import Relief.Proofs.Members

set_option autoImplicit false

/-! # Variants: texts that say the same

Two texts of a value say the same when one comes from the other by writing the members of objects in
another order, at any depth (`Reordered`). A reader of scalars cannot tell such texts apart: it
takes no brackets, unless it reads a choice, and an object that chooses has one member. So a record
of scalars is read from both as the same record (`Scalars.own_reordered`), and a member with an
unknown key makes no difference to it either (`Scalars.own_extended`). -/

namespace Relief.Json

/-! ## Lists -/

/-- The texts of one or more items. -/
inductive IsItems : List (List Char) → List Char → Prop
  | last {bs cs bs' : List Char} (hbs : Blanks bs) (h : IsValue cs) (hbs' : Blanks bs') :
    IsItems [cs] (bs ++ (cs ++ bs'))
  | next {bs cs bs' more : List Char} {items : List (List Char)} (hbs : Blanks bs)
    (h : IsValue cs) (hbs' : Blanks bs') (hmore : IsItems items more) :
    IsItems (cs :: items) (bs ++ (cs ++ (bs' ++ ',' :: more)))

/-- The texts of lists. -/
inductive IsList : List (List Char) → List Char → Prop
  | empty {bs : List Char} (hbs : Blanks bs) : IsList [] ('[' :: (bs ++ [']']))
  | items {items : List (List Char)} {cs : List Char} (h : IsItems items cs) :
    IsList items ('[' :: (cs ++ [']']))

theorem IsList.head {items : List (List Char)} {cs : List Char} (h : IsList items cs) :
    ∃ after, cs = '[' :: after := by
  cases h <;> exact ⟨_, rfl⟩

theorem IsObject.head {members : List Member} {cs : List Char} (h : IsObject members cs) :
    ∃ after, cs = '\x7b' :: after := by
  cases h <;> exact ⟨_, rfl⟩

/-! ## Reordering -/

/-- Members in another order, and with values that are related to theirs. -/
inductive Rearranged (R : List Char → List Char → Prop) : List Member → List Member → Prop
  | order {members members' : List Member} (h : members.Perm members') :
    Rearranged R members members'
  | value {cs cs' : List Char} (raw : List Char) (front back : List Member) (h : R cs cs') :
    Rearranged R (front ++ (raw, cs) :: back) (front ++ (raw, cs') :: back)
  | trans {members members' members'' : List Member} (h : Rearranged R members members')
    (h' : Rearranged R members' members'') : Rearranged R members members''

/-- Texts of a value that differ in the order of members, at any depth. -/
inductive Reordered : List Char → List Char → Prop
  | same (cs : List Char) : Reordered cs cs
  | object {members members' : List Member} {cs cs' : List Char} (hcs : IsObject members cs)
    (hcs' : IsObject members' cs') (h : Rearranged Reordered members members') : Reordered cs cs'
  | list {items items' : List (List Char)} {cs cs' : List Char} (hcs : IsList items cs)
    (hcs' : IsList items' cs') (h : List.Forall₂ Reordered items items') : Reordered cs cs'

/-- An object stays one. -/
theorem Reordered.isObject_iff {cs cs' : List Char} (h : Reordered cs cs') :
    (∃ members, IsObject members cs) ↔ ∃ members, IsObject members cs' := by
  cases h with
  | same => exact Iff.rfl
  | object hcs hcs' h => exact ⟨fun _ => ⟨_, hcs'⟩, fun _ => ⟨_, hcs⟩⟩
  | list hcs hcs' h =>
    have hnot : ∀ {items cs}, IsList items cs → ¬ ∃ members, IsObject members cs := by
      rintro items cs hlist ⟨members, hobject⟩
      obtain ⟨after, rfl⟩ := hlist.head
      obtain ⟨after', heq⟩ := hobject.head
      cases heq
    exact iff_of_false (hnot hcs) (hnot hcs')

/-! ## Scalars -/

section

variable {α β : Type} {cs cs' : List Char}

/-- Whether a reader takes neither lists nor objects. -/
def Flat (read : Reader β) : Prop :=
  ∀ (nest : Nest) (cs : List Char), own read (nest.opening :: cs) = none

theorem flat_readInteger : Flat readInteger := fun nest cs => by cases nest <;> rfl

theorem flat_readSingle : Flat readSingle := fun nest cs => by cases nest <;> rfl

theorem flat_readText (name : String) : Flat (readText name) :=
  fun nest cs => by cases nest <;> rfl

theorem flat_readNull : Flat readNull := fun nest cs => by cases nest <;> rfl

theorem Flat.own_reordered {read : Reader β} (hflat : Flat read) (h : Reordered cs cs') :
    own read cs = own read cs' := by
  cases h with
  | same => rfl
  | object hcs hcs' h =>
    obtain ⟨after, rfl⟩ := hcs.head
    obtain ⟨after', rfl⟩ := hcs'.head
    exact (hflat .object after).trans (hflat .object after').symm
  | list hcs hcs' h =>
    obtain ⟨after, rfl⟩ := hcs.head
    obtain ⟨after', rfl⟩ := hcs'.head
    exact (hflat .list after).trans (hflat .list after').symm

variable (values : List α) (name : α → String) {members members' : List Member}

theorem chosen?_of_length (h : members.length ≠ 1) : chosen? values name members = none := by
  match members with
  | [] => rfl
  | [m] => exact absurd rfl h
  | m :: m' :: ms => rfl

theorem chosen?_rearranged (h : Rearranged Reordered members members') :
    chosen? values name members = chosen? values name members' := by
  induction h with
  | @order members members' h =>
    by_cases hlength : members.length = 1
    · obtain ⟨m, rfl⟩ := List.length_eq_one_iff.1 hlength
      rw [List.singleton_perm.1 h]
    · rw [chosen?_of_length values name hlength,
        chosen?_of_length values name (h.length_eq ▸ hlength)]
  | @value cs cs' raw front back h =>
    by_cases hlength : (front ++ (raw, cs) :: back).length = 1
    · simp only [List.length_append, List.length_cons] at hlength
      obtain rfl : front = [] := List.length_eq_zero_iff.1 (by omega)
      obtain rfl : back = [] := List.length_eq_zero_iff.1 (by omega)
      simp only [List.nil_append, chosen?, flat_readNull.own_reordered h]
    · rw [chosen?_of_length values name hlength, chosen?_of_length]
      simpa only [List.length_append, List.length_cons] using hlength
  | trans h h' ih ih' => exact ih.trans ih'

theorem readChoice_reordered (h : Reordered cs cs') :
    own (readChoice values name) cs = own (readChoice values name) cs' := by
  cases h with
  | same => rfl
  | object hcs hcs' h =>
    rw [(readChoice_isObject values name hcs).2, (readChoice_isObject values name hcs').2,
      chosen?_rearranged values name h]
  | list hcs hcs' h =>
    obtain ⟨after, rfl⟩ := hcs.head
    obtain ⟨after', rfl⟩ := hcs'.head
    rfl

end

/-! ## Records of scalars -/

section

variable {α β γ : Type}

/-- Whether a reader reads scalars: it cannot tell reordered texts of a value apart. -/
structure Scalar (read : Reader β) : Prop where
  skipsBlanks : SkipsBlanks read
  settles : ∀ cs, IsValue cs → Settles read cs
  steady : ∀ cs cs', Reordered cs cs' → own read cs = own read cs'

theorem scalar_readInteger : Scalar readInteger :=
  ⟨readInteger_skipsBlanks, fun _ => settles_readInteger,
    fun _ _ => flat_readInteger.own_reordered⟩

theorem scalar_readSingle : Scalar readSingle :=
  ⟨readSingle_skipsBlanks, fun _ => settles_readSingle, fun _ _ => flat_readSingle.own_reordered⟩

theorem scalar_readText (name : String) : Scalar (readText name) :=
  ⟨readText_skipsBlanks name, fun _ => settles_readText name,
    fun _ _ => (flat_readText name).own_reordered⟩

theorem scalar_readChoice (values : List α) (name : α → String) :
    Scalar (readChoice values name) :=
  ⟨readChoice_skipsBlanks values name, fun _ => settles_readChoice values name,
    fun _ _ => readChoice_reordered values name⟩

theorem Scalar.map {read : Reader β} (h : Scalar read) (f : β → γ) :
    Scalar fun cs => (read cs).map fun (b, rest) => (f b, rest) := by
  refine ⟨h.skipsBlanks.map f, fun cs hcs => (h.settles cs hcs).map f, fun cs cs' hcs => ?_⟩
  rw [own_map, own_map, h.steady cs cs' hcs]

theorem Scalar.fits {read : Reader β} (h : Scalar read) (key : String) (store : α → β → α)
    {cs : List Char} (hcs : IsValue cs) : (FieldReader.of key read store).Fits cs :=
  FieldReader.fits_of h.skipsBlanks (h.settles cs hcs) key store

/-- Whether the fields of a record are scalars that are stored apart from each other. -/
structure Scalars (fields : List (FieldReader α)) : Prop where
  commute : fields.Pairwise Commutes
  scalar : ∀ field ∈ fields, ∀ record, Scalar (field.read record)

theorem scalars_pair {read : Reader β} {store store' : α → β → α} (h : Scalar read)
    (key key' : String)
    (hstore : ∀ record b c, store' (store record b) c = store (store' record c) b) :
    Scalars [.of key read store, .of key' read store'] where
  commute := List.pairwise_pair.2 (commutes_of hstore)
  scalar := by
    intro field hfield record
    simp only [List.mem_cons, List.not_mem_nil, or_false] at hfield
    obtain rfl | rfl := hfield <;> exact h.map _

/-- One more member, whose key is not among the known ones. -/
inductive Extended (known : List String) : List Member → List Member → Prop
  | mk {raw : List Char} {key : String} (front back : List Member) (cs : List Char)
    (hkey : keyOf? raw = some key) (hunknown : key ∉ known) :
    Extended known (front ++ back) (front ++ (raw, cs) :: back)

variable {fields : List (FieldReader α)} {members members' : List Member} {cs cs' : List Char}

theorem fill_extended (h : Extended (fields.map (·.key)) members members') (record : α) :
    fill fields record members = fill fields record members' := by
  cases h with | @mk raw key front back cs hkey hunknown =>
  have hnone : fieldOf? fields key = none := by
    refine List.find?_eq_none.2 fun field hfield heq => hunknown ?_
    exact List.mem_map.2 ⟨field, hfield, eq_of_beq heq⟩
  exact (fill_unknown hkey hnone cs front back record).symm

namespace Scalars

variable (h : Scalars fields) (name : String) (record : α)

include h

theorem readRecord_isObject (hcs : IsObject members cs) :
    Settles (readRecord name fields record) cs ∧
      own (readRecord name fields record) cs = fill fields record members :=
  Json.readRecord_isObject hcs (fun m hm _ field _ hfield =>
    have hscalar := h.scalar field (mem_of_fieldOf? hfield).1
    ⟨fun record => (hscalar record).skipsBlanks,
      fun record => (hscalar record).settles m.2 (hcs.isValue_of_mem m hm)⟩) name record

theorem fits_section (key : String) (store : β → α → β)
    (hobject : ∃ members, IsObject members cs) :
    (FieldReader.of key (readRecord name fields record) store).Fits cs := by
  obtain ⟨members, hcs⟩ := hobject
  exact FieldReader.fits_of (readRecord_skipsBlanks name fields record)
    (h.readRecord_isObject name record hcs).1 key store

theorem fill_rearranged (hmembers : Rearranged Reordered members members') :
    fill fields record members = fill fields record members' := by
  induction hmembers with
  | order hperm => exact fill_perm h.commute hperm record
  | value raw front back hcs =>
    exact fill_congr (fun key field _ hfield record =>
      (h.scalar field (mem_of_fieldOf? hfield).1 record).steady _ _ hcs) front back record
  | trans _ _ ih ih' => exact ih.trans ih'

/-- The order of members, at any depth, does not matter to a record of scalars. -/
theorem own_reordered (hobject : ∃ members, IsObject members cs) (hcs : Reordered cs cs') :
    own (readRecord name fields record) cs = own (readRecord name fields record) cs' := by
  cases hcs with
  | same => rfl
  | object hcs hcs' hmembers =>
    rw [(h.readRecord_isObject name record hcs).2, (h.readRecord_isObject name record hcs').2,
      h.fill_rearranged record hmembers]
  | list hcs hcs' =>
    obtain ⟨members, hobject⟩ := hobject
    obtain ⟨after, rfl⟩ := hcs.head
    obtain ⟨after', heq⟩ := hobject.head
    cases heq

/-- A member with an unknown key does not matter to a record of scalars. -/
theorem own_extended (hcs : IsObject members cs) (hcs' : IsObject members' cs')
    (hext : Extended (fields.map (·.key)) members members') :
    own (readRecord name fields record) cs = own (readRecord name fields record) cs' := by
  rw [(h.readRecord_isObject name record hcs).2, (h.readRecord_isObject name record hcs').2,
    fill_extended hext record]

end Scalars

end

end Relief.Json
