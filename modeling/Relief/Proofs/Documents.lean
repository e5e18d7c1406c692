import Relief.Proofs.Variants
import Relief.Proofs.Reloading

set_option autoImplicit false

/-! # Documents: a project is read field by field

A document is an object with blanks around it (`IsDocument`), and what is read from it is what its
members make of the standard project (`Project.parse_iff_fill`). Its sections are records of
scalars, so neither the order of the members, at any depth, nor a member that nobody asks for makes
a difference (`Project.fill_variant`). Each setting has a key of its own, in the document or in a
section: it comes from the value of that key, or is the standard one when there is none
(`Project.describes_of_parse`). -/

namespace Relief

open Json

/-! ## Sections -/

/-- The side that a whole number stands for. -/
def sideOf (n : ℤ) : ℕ := if 0 < n then n.toNat else Project.standardSide

theorem sideOf_eq (n : ℤ) : sideOf n = if n ≤ 0 then 1024 else n.toNat := by
  by_cases hpos : 0 < n
  · rw [sideOf, if_pos hpos, if_neg (not_le.2 hpos)]
  · rw [sideOf, if_neg hpos, if_pos (not_lt.1 hpos), Project.standardSide]

theorem scalar_readSide : Scalar readSide := scalar_readInteger.map sideOf

theorem own_readSide (cs : List Char) : own readSide cs = (own readInteger cs).map sideOf :=
  own_map readInteger sideOf cs

theorem Size.scalars : Scalars Size.fields :=
  scalars_pair scalar_readSide _ _ fun _ _ _ => rfl

theorem HeightRange.scalars : Scalars HeightRange.fields :=
  scalars_pair scalar_readSingle _ _ fun _ _ _ => rfl

theorem Outputs.scalars : Scalars Outputs.fields :=
  scalars_pair (scalar_readText _) _ _ fun _ _ _ => rfl

theorem Size.fields_own : Owns Size.fields "width" readSide (·.width) ∧
    Owns Size.fields "height" readSide (·.height) :=
  owns_pair (by decide) (fun _ _ => ⟨rfl, rfl⟩) fun _ _ => ⟨rfl, rfl⟩

theorem HeightRange.fields_own : Owns HeightRange.fields "min" readSingle (·.min) ∧
    Owns HeightRange.fields "max" readSingle (·.max) :=
  owns_pair (by decide) (fun _ _ => ⟨rfl, rfl⟩) fun _ _ => ⟨rfl, rfl⟩

theorem Outputs.fields_own :
    Owns Outputs.fields "height" (readText "path string") (·.height) ∧
      Owns Outputs.fields "color" (readText "path string") (·.color) :=
  owns_pair (by decide) (fun _ _ => ⟨rfl, rfl⟩) fun _ _ => ⟨rfl, rfl⟩

/-- The members of a section: those of the object that its key has, and none if the key is
    missing. -/
inductive Section (members : List Member) (key : String) : List Member → Prop
  | absent (h : valueOf? members key = none) : Section members key []
  | given {cs : List Char} {inner : List Member} (h : valueOf? members key = some cs)
    (hcs : IsObject inner cs) : Section members key inner

theorem Section.isValue {members inner : List Member} {key : String}
    (h : Section members key inner) :
    ∀ m ∈ inner, IsValue m.2 := by
  cases h with
  | absent => exact fun m hm => absurd hm List.not_mem_nil
  | given _ hcs => exact hcs.isValue_of_mem

theorem Json.Scalars.fill_section {α : Type} {fields : List (FieldReader α)}
    {members inner : List Member} {name key : String} {standard final : α} (h : Scalars fields)
    (hreading : reading (readRecord name fields standard) standard members key = some final)
    (hinner : Section members key inner) : fill fields standard inner = some final := by
  unfold reading at hreading
  cases hinner with
  | absent hnone =>
    rw [hnone] at hreading
    exact hreading
  | given hsome hcs =>
    rw [hsome] at hreading
    exact ((h.readRecord_isObject name standard hcs).2).symm.trans hreading

namespace Project

/-- The keys of the sections, each with the keys inside. -/
def sections : List (String × List String) :=
  [("resolution", Size.fields.map (·.key)), ("height_range", HeightRange.fields.map (·.key)),
    ("outputs", Outputs.fields.map (·.key))]

/-- Whether a member is an object if its key is that of a section. -/
def Sectioned (m : Member) : Prop :=
  ∀ key known, keyOf? m.1 = some key → (key, known) ∈ sections → ∃ inner, IsObject inner m.2

theorem fields_commute : fields.Pairwise Commutes := by
  simp only [fields, List.pairwise_cons, List.forall_mem_cons, List.not_mem_nil, false_imp_iff,
    implies_true, List.Pairwise.nil, and_true]
  repeat' apply And.intro
  all_goals exact commutes_of fun _ _ _ => rfl

/-- Every field fits the values that may be given for it. -/
theorem fits_of_sectioned {m : Member} (hvalue : IsValue m.2) (hsectioned : Sectioned m) :
    Suits fields m := by
  intro key field hkey hfield
  obtain ⟨hmem, rfl⟩ := mem_of_fieldOf? hfield
  have hsection : ∀ known, (field.key, known) ∈ sections → ∃ inner, IsObject inner m.2 :=
    fun known => hsectioned field.key known hkey
  simp only [fields, List.mem_cons, List.not_mem_nil, or_false] at hmem
  obtain rfl | rfl | rfl | rfl | rfl | rfl := hmem
  · exact Size.scalars.fits_section _ _ _ _ (hsection _ (.head _))
  · exact HeightRange.scalars.fits_section _ _ _ _ (hsection _ (.tail _ (.head _)))
  · exact (scalar_readChoice _ _).fits _ _ hvalue
  · exact (scalar_readChoice _ _).fits _ _ hvalue
  · exact Outputs.scalars.fits_section _ _ _ _ (hsection _ (.tail _ (.tail _ (.head _))))
  · exact (scalar_readChoice _ _).fits _ _ hvalue

/-! ## Documents -/

/-- A document: an object with nothing but blanks around it. -/
inductive IsDocument (text : String) (members : List Member) : Prop
  | mk {bs cs bs' : List Char} (hbs : Blanks bs) (hcs : IsObject members cs) (hbs' : Blanks bs')
    (htext : text.toList = bs ++ (cs ++ bs'))

variable {text : String} {members members' : List Member} {p : Project}

theorem IsDocument.isValue_of_mem (h : IsDocument text members) : ∀ m ∈ members, IsValue m.2 := by
  obtain ⟨hbs, hcs, hbs', htext⟩ := h
  exact hcs.isValue_of_mem

/-- What is read from a document is what its members make of the standard project. -/
theorem parse_iff_fill (h : IsDocument text members) (hsections : ∀ m ∈ members, Sectioned m) :
    parse text = .ok p ↔ fill fields standard members = some p := by
  obtain ⟨hbs, hcs, hbs', htext⟩ := h
  obtain ⟨hsettles, hown⟩ := readRecord_isObject hcs
    (fun m hm => fits_of_sectioned (hcs.isValue_of_mem m hm) (hsections m hm))
    "struct Project" standard
  have hend := hbs'.skipBlanks_append []
  rw [List.append_nil] at hend
  rw [← hown, parse, readDocument, htext, readRecord_skipsBlanks _ _ _ _ _ hbs]
  rcases hsettles.cases hbs'.stops with ⟨q, hread, hq⟩ | ⟨fault, hread, hq⟩
  · rw [hread, hq]
    dsimp only
    rw [hend]
    exact ⟨fun h => by cases h; rfl, fun h => by cases h; rfl⟩
  · rw [hread, hq]
    exact ⟨nofun, nofun⟩

/-! ## Variants -/

/-- Changes to the members of a document that make no difference: another order of the members, at
    any depth, and one more member that nobody asks for, in the document or in a section. -/
inductive Variant : List Member → List Member → Prop
  | reordered {members members' : List Member} (h : Rearranged Reordered members members') :
    Variant members members'
  | extended {members members' : List Member}
    (h : Extended (fields.map (·.key)) members members') : Variant members members'
  | inside {raw cs cs' : List Char} {key : String} {known : List String}
    {inner inner' : List Member} (front back : List Member) (hkey : keyOf? raw = some key)
    (hsection : (key, known) ∈ sections) (hcs : IsObject inner cs) (hcs' : IsObject inner' cs')
    (h : Extended known inner inner') :
    Variant (front ++ (raw, cs) :: back) (front ++ (raw, cs') :: back)

/-- One value among the members is replaced. -/
theorem forall_sectioned_replace {raw cs cs' : List Char}
    (h : Sectioned (raw, cs) ↔ Sectioned (raw, cs')) (front back : List Member) :
    (∀ m ∈ front ++ (raw, cs) :: back, Sectioned m)
      ↔ ∀ m ∈ front ++ (raw, cs') :: back, Sectioned m := by
  simp only [List.forall_mem_append, List.forall_mem_cons, h]

theorem sectioned_of_isObject {raw cs : List Char} (h : ∃ inner, IsObject inner cs) :
    Sectioned (raw, cs) := fun _ _ _ _ => h

theorem sectioned_reordered {cs cs' : List Char} (h : Reordered cs cs') (raw : List Char) :
    Sectioned (raw, cs) ↔ Sectioned (raw, cs') := by
  unfold Sectioned
  dsimp only
  rw [h.isObject_iff]

/-- The key of a section is known. -/
theorem known_of_mem_sections {key : String} {known : List String}
    (h : (key, known) ∈ sections) : key ∈ fields.map (·.key) := by
  simp only [sections, List.mem_cons, Prod.mk.injEq, List.not_mem_nil, or_false] at h
  obtain ⟨rfl, -⟩ | ⟨rfl, -⟩ | ⟨rfl, -⟩ := h <;> decide

/-- Sections stay objects. -/
theorem sectioned_variant (h : Variant members members') :
    (∀ m ∈ members, Sectioned m) ↔ ∀ m ∈ members', Sectioned m := by
  cases h with
  | reordered h =>
    induction h with
    | order hperm => simp only [hperm.mem_iff]
    | value raw front back hcs =>
      exact forall_sectioned_replace (sectioned_reordered hcs raw) front back
    | trans _ _ ih ih' => exact ih.trans ih'
  | extended h =>
    cases h with | @mk raw key front back cs hkey hunknown =>
    have hvacuous : Sectioned (raw, cs) := by
      intro key' known hkey' hsection
      cases hkey.symm.trans hkey'
      exact absurd (known_of_mem_sections hsection) hunknown
    simp only [List.forall_mem_append, List.forall_mem_cons, hvacuous, true_and]
  | inside front back hkey hsection hcs hcs' h =>
    exact forall_sectioned_replace (iff_of_true (sectioned_of_isObject ⟨_, hcs⟩)
      (sectioned_of_isObject ⟨_, hcs'⟩)) front back

theorem own_reordered {raw cs cs' : List Char} (hsectioned : Sectioned (raw, cs))
    (h : Reordered cs cs') (key : String) (field : FieldReader Project)
    (hkey : keyOf? raw = some key) (hfield : fieldOf? fields key = some field)
    (record : Project) : own (field.read record) cs = own (field.read record) cs' := by
  obtain ⟨hmem, rfl⟩ := mem_of_fieldOf? hfield
  have hsection : ∀ known, (field.key, known) ∈ sections → ∃ inner, IsObject inner cs :=
    fun known => hsectioned field.key known hkey
  simp only [fields, List.mem_cons, List.not_mem_nil, or_false] at hmem
  obtain rfl | rfl | rfl | rfl | rfl | rfl := hmem
  · exact own_of_congr (Size.scalars.own_reordered _ _ (hsection _ (.head _)) h) _ _ record
  · exact own_of_congr
      (HeightRange.scalars.own_reordered _ _ (hsection _ (.tail _ (.head _))) h) _ _ record
  · exact own_of_congr (readChoice_reordered _ _ h) _ _ record
  · exact own_of_congr (readChoice_reordered _ _ h) _ _ record
  · exact own_of_congr
      (Outputs.scalars.own_reordered _ _ (hsection _ (.tail _ (.tail _ (.head _)))) h) _ _ record
  · exact own_of_congr (readChoice_reordered _ _ h) _ _ record

theorem own_inside {raw cs cs' : List Char} {key : String} {known : List String}
    {inner inner' : List Member} (hkey : keyOf? raw = some key)
    (hsection : (key, known) ∈ sections) (hcs : IsObject inner cs) (hcs' : IsObject inner' cs')
    (h : Extended known inner inner') (key' : String) (field : FieldReader Project)
    (hkey' : keyOf? raw = some key') (hfield : fieldOf? fields key' = some field)
    (record : Project) : own (field.read record) cs = own (field.read record) cs' := by
  cases hkey.symm.trans hkey'
  simp only [sections, List.mem_cons, Prod.mk.injEq, List.not_mem_nil, or_false] at hsection
  obtain ⟨rfl, rfl⟩ | ⟨rfl, rfl⟩ | ⟨rfl, rfl⟩ := hsection
  · cases hfield
    exact own_of_congr (Size.scalars.own_extended _ _ hcs hcs' h) _ _ record
  · cases hfield
    exact own_of_congr (HeightRange.scalars.own_extended _ _ hcs hcs' h) _ _ record
  · cases hfield
    exact own_of_congr (Outputs.scalars.own_extended _ _ hcs hcs' h) _ _ record

theorem fill_rearranged (h : Rearranged Reordered members members')
    (hsections : ∀ m ∈ members, Sectioned m) :
    fill fields standard members = fill fields standard members' := by
  induction h with
  | order hperm => exact fill_perm fields_commute hperm standard
  | value raw front back hcs =>
    have hsectioned := hsections (raw, _) (List.mem_append_right front (List.mem_cons_self ..))
    exact fill_congr (own_reordered hsectioned hcs) front back standard
  | trans h h' ih ih' =>
    exact (ih hsections).trans (ih' ((sectioned_variant (.reordered h)).1 hsections))

/-- A variant gives the same project, if any. -/
theorem fill_variant (h : Variant members members') (hsections : ∀ m ∈ members, Sectioned m) :
    fill fields standard members = fill fields standard members' := by
  cases h with
  | reordered h => exact fill_rearranged h hsections
  | extended h => exact fill_extended h standard
  | inside front back hkey hsection hcs hcs' h =>
    exact fill_congr (own_inside hkey hsection hcs hcs' h) front back standard

theorem fill_variants (h : Relation.EqvGen Variant members members') :
    ((∀ m ∈ members, Sectioned m) ↔ ∀ m ∈ members', Sectioned m) ∧
      ((∀ m ∈ members, Sectioned m) →
        fill fields standard members = fill fields standard members') := by
  induction h with
  | rel _ _ h => exact ⟨sectioned_variant h, fill_variant h⟩
  | refl _ => exact ⟨Iff.rfl, fun _ => rfl⟩
  | symm _ _ _ ih => exact ⟨ih.1.symm, fun hsections => (ih.2 (ih.1.2 hsections)).symm⟩
  | trans _ _ _ _ _ ih ih' =>
    exact ⟨ih.1.trans ih'.1,
      fun hsections => (ih.2 hsections).trans (ih'.2 (ih.1.1 hsections))⟩

/-! ## Where the settings come from -/

/-- The side that the text of a whole number means: 1024 when it is zero or less. -/
def MeansSide (cs : List Char) (side : ℕ) : Prop :=
  ∃ n, IsWhole cs n ∧ side = if n ≤ 0 then 1024 else n.toNat

/-- The bound that the text of a number means. -/
def MeansBound (cs : List Char) (x : Float32) : Prop := IsNumber cs ∧ own readSingle cs = some x

/-- What holds of the members of a section, which there are. -/
def InSection (members : List Member) (key : String) (P : List Member → Prop) : Prop :=
  (∃ inner, Section members key inner) ∧ ∀ inner, Section members key inner → P inner

/-- Where the settings of a project come from: each is what its own value means, and the standard
    one where the value, or its whole section, is missing. -/
structure Describes (members : List Member) (p : Project) : Prop where
  resolution : InSection members "resolution" fun inner =>
    ComesFrom MeansSide standard.size.width inner "width" p.size.width ∧
      ComesFrom MeansSide standard.size.height inner "height" p.size.height
  range : InSection members "height_range" fun inner =>
    ComesFrom MeansBound standard.range.min inner "min" p.range.min ∧
      ComesFrom MeansBound standard.range.max inner "max" p.range.max
  height : ComesFrom (Names HeightPreset.name) standard.height members "height" p.height
  color : ComesFrom (Names ColorPreset.name) standard.color members "color" p.color
  outputs : InSection members "outputs" fun inner =>
    ComesFrom IsText standard.outputs.height inner "height" p.outputs.height ∧
      ComesFrom IsText standard.outputs.color inner "color" p.outputs.color
  sampling : ComesFrom (Names Sampling.name) standard.sampling members "sampling" p.sampling

theorem meansSide_of_readSide {cs : List Char} {side : ℕ} (h : IsValue cs)
    (hown : own readSide cs = some side) : MeansSide cs side := by
  rw [own_readSide] at hown
  obtain ⟨n, hn, rfl⟩ := Option.map_eq_some_iff.1 hown
  exact ⟨n, isWhole_of_readInteger h hn, sideOf_eq n⟩

theorem meansBound_of_readSingle {cs : List Char} {x : Float32} (h : IsValue cs)
    (hown : own readSingle cs = some x) : MeansBound cs x := by
  refine ⟨?_, hown⟩
  cases h with
  | number h => exact h
  | null | yes | no | string => cases hown
  | empty nest | @nested _ nest => cases nest <;> cases hown

theorem exists_section (hsections : ∀ m ∈ members, Sectioned m) {key : String}
    {known : List String} (hsection : (key, known) ∈ sections) :
    ∃ inner, Section members key inner := by
  cases hvalue : valueOf? members key with
  | none => exact ⟨[], .absent hvalue⟩
  | some cs =>
    obtain ⟨m, hm, rfl⟩ := Option.map_eq_some_iff.1 hvalue
    have hkey := List.find?_some hm
    obtain ⟨inner, hcs⟩ := hsections m (List.mem_of_find?_eq_some hm) key known
      (eq_of_beq hkey) hsection
    exact ⟨inner, .given hvalue hcs⟩

/-- Every part of a project is the business of one key. -/
theorem fields_own :
    Owns fields "resolution" (readRecord "struct Resolution" Size.fields standard.size) (·.size) ∧
      Owns fields "height_range"
        (readRecord "struct HeightRange" HeightRange.fields standard.range) (·.range) ∧
      Owns fields "height" (readChoice HeightPreset.all HeightPreset.name) (·.height) ∧
      Owns fields "color" (readChoice ColorPreset.all ColorPreset.name) (·.color) ∧
      Owns fields "outputs" (readRecord "struct Outputs" Outputs.fields standard.outputs)
        (·.outputs) ∧
      Owns fields "sampling" (readChoice Sampling.all Sampling.name) (·.sampling) := by
  refine ⟨⟨⟨_, rfl, reads_of (fun _ _ => rfl) _⟩, ?_⟩, ⟨⟨_, rfl, reads_of (fun _ _ => rfl) _⟩, ?_⟩,
    ⟨⟨_, rfl, reads_of (fun _ _ => rfl) _⟩, ?_⟩, ⟨⟨_, rfl, reads_of (fun _ _ => rfl) _⟩, ?_⟩,
    ⟨⟨_, rfl, reads_of (fun _ _ => rfl) _⟩, ?_⟩, ⟨⟨_, rfl, reads_of (fun _ _ => rfl) _⟩, ?_⟩⟩
  all_goals
    intro field hfield hne
    simp only [fields, List.mem_cons, List.not_mem_nil, or_false] at hfield
    obtain rfl | rfl | rfl | rfl | rfl | rfl := hfield
    -- the field of the key, and the ones that touch other parts
    all_goals first
      | exact absurd rfl hne
      | exact FieldReader.leaves_of _ _ fun _ _ => rfl

/-- A project that is read from a document comes from its members, key by key. -/
theorem describes_of_parse (h : IsDocument text members)
    (hsections : ∀ m ∈ members, Sectioned m) (hparse : parse text = .ok p) :
    Describes members p := by
  have hfill := (parse_iff_fill h hsections).1 hparse
  have hvalues := h.isValue_of_mem
  obtain ⟨hsize, hrange, hheight, hcolor, houtputs, hsampling⟩ := fields_own
  refine ⟨⟨exists_section hsections (.head _), fun inner hinner => ?_⟩,
    ⟨exists_section hsections (.tail _ (.head _)), fun inner hinner => ?_⟩,
    comesFrom_of_reading hvalues (fun _ _ => names_of_readChoice _ _) (hheight.reading hfill),
    comesFrom_of_reading hvalues (fun _ _ => names_of_readChoice _ _) (hcolor.reading hfill),
    ⟨exists_section hsections (.tail _ (.tail _ (.head _))), fun inner hinner => ?_⟩,
    comesFrom_of_reading hvalues (fun _ _ => names_of_readChoice _ _) (hsampling.reading hfill)⟩
  · have hinnerFill := Size.scalars.fill_section (hsize.reading hfill) hinner
    exact ⟨comesFrom_of_reading hinner.isValue (fun _ _ => meansSide_of_readSide)
        (Size.fields_own.1.reading hinnerFill),
      comesFrom_of_reading hinner.isValue (fun _ _ => meansSide_of_readSide)
        (Size.fields_own.2.reading hinnerFill)⟩
  · have hinnerFill := HeightRange.scalars.fill_section (hrange.reading hfill) hinner
    exact ⟨comesFrom_of_reading hinner.isValue (fun _ _ => meansBound_of_readSingle)
        (HeightRange.fields_own.1.reading hinnerFill),
      comesFrom_of_reading hinner.isValue (fun _ _ => meansBound_of_readSingle)
        (HeightRange.fields_own.2.reading hinnerFill)⟩
  · have hinnerFill := Outputs.scalars.fill_section (houtputs.reading hfill) hinner
    exact ⟨comesFrom_of_reading hinner.isValue (fun _ _ => isText_of_readText)
        (Outputs.fields_own.1.reading hinnerFill),
      comesFrom_of_reading hinner.isValue (fun _ _ => isText_of_readText)
        (Outputs.fields_own.2.reading hinnerFill)⟩

/-- **A project document is read field by field.** The order of the members, at any depth, makes no
    difference, and neither does a member that nobody asks for, in the document or in a section.
    Each setting comes from its own value, or is the standard one, and both sides are positive. A
    document in which a known key comes twice is refused in all its variants alike. -/
theorem parse_fieldwise (h : IsDocument text members) (hsections : ∀ m ∈ members, Sectioned m) :
    (∀ text' members', IsDocument text' members' → Relation.EqvGen Variant members members' →
      ∀ p, parse text' = .ok p ↔ parse text = .ok p) ∧
      (∀ p, parse text = .ok p → Describes members p) ∧
      ∀ text p, parse text = .ok p → 1 ≤ p.size.width ∧ 1 ≤ p.size.height := by
  refine ⟨fun text' members' h' hvariants p => ?_, fun p => describes_of_parse h hsections,
    fun text p hparse => ?_⟩
  · obtain ⟨hiff, hfill⟩ := fill_variants hvariants
    rw [parse_iff_fill h hsections, parse_iff_fill h' (hiff.1 hsections), hfill hsections]
  · obtain ⟨⟨hwidth, -⟩, hheight, -⟩ := inRange_of_parse hparse
    exact ⟨hwidth, hheight⟩

/-- A width of zero, and the same with a member that nobody asks for. -/
theorem parse_fieldwise_zero_width :
    ∃ members p, IsDocument "\x7b\"resolution\":\x7b\"width\":0\x7d\x7d" members ∧
      parse "\x7b\"resolution\":\x7b\"width\":0\x7d\x7d" = .ok p ∧ Describes members p ∧
      p.size = ⟨1024, 1024⟩ ∧
      parse "\x7b\"resolution\":\x7b\"x\":null,\"width\":0\x7d\x7d" = .ok p := by
  have hresolution : IsKey ['r', 'e', 's', 'o', 'l', 'u', 't', 'i', 'o', 'n'] _ :=
    isKey_of_plain rfl
  have hwidth : IsKey ['w', 'i', 'd', 't', 'h'] _ := isKey_of_plain rfl
  have hx : IsKey ['x'] _ := isKey_of_plain rfl
  have hzero : IsValue ['0'] := .number (.unsigned (.mk wholePart_zero .none .none))
  have hmember := IsMembers.last hwidth hzero blanks_nil
  have hinner := IsObject.members hmember
  have hinner' := IsObject.members (.next hx .null blanks_nil hmember)
  have hcs := IsObject.members (.last hresolution hinner.isValue blanks_nil)
  have hcs' := IsObject.members (.last hresolution hinner'.isValue blanks_nil)
  have hdocument : IsDocument "\x7b\"resolution\":\x7b\"width\":0\x7d\x7d" _ :=
    .mk blanks_nil hcs blanks_nil (by decide +kernel)
  have hdocument' : IsDocument "\x7b\"resolution\":\x7b\"x\":null,\"width\":0\x7d\x7d" _ :=
    .mk blanks_nil hcs' blanks_nil (by decide +kernel)
  have hkey : keyOf? ['r', 'e', 's', 'o', 'l', 'u', 't', 'i', 'o', 'n'] = some "resolution" := by
    decide +kernel
  have hvariant := Variant.inside [] [] hkey (.head _) hinner hinner'
    (.mk [] _ _ (show keyOf? ['x'] = some "x" by decide +kernel) (by decide))
  obtain ⟨hsame, hdescribes, -⟩ := parse_fieldwise hdocument fun m hm => by
    obtain rfl := List.mem_singleton.1 hm
    exact sectioned_of_isObject ⟨_, hinner⟩
  have hread : ((parse "\x7b\"resolution\":\x7b\"width\":0\x7d\x7d").toOption.any
      fun p => decide (p.size = ⟨1024, 1024⟩)) = true := by
    decide +kernel
  obtain ⟨p, hp, hsize⟩ := exists_of_any hread
  exact ⟨_, p, hdocument, hp, hdescribes p hp, of_decide_eq_true hsize,
    (hsame _ _ hdocument' (.rel _ _ hvariant) p).2 hp⟩

end Project

end Relief
