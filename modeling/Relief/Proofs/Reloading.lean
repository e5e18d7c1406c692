import Relief.Proofs.Records
import Relief.Project.Reader

set_option autoImplicit false

/-! # Reloading projects: a document that was written is read again

A project that comes from a document has positive sides that fit into 64 bits (`inRange_of_parse`).
Each of its settings, written as a member, is read as the setting, whatever the paths and names are,
with one exception: a bound beyond the largest number of single precision has become infinite and is
written as a word. So the document that a project is written as gives the same project again exactly
when both bounds are finite, and is refused otherwise (`Project.parse_toText_eq`). -/

namespace Relief

open Json

/-! ## Sizes -/

/-- A side as a document can name it. -/
def IsSide (n : ℕ) : Prop := 0 < n ∧ n ≤ signedTop

/-- A size with two such sides. -/
def Size.InRange (s : Size) : Prop := IsSide s.width ∧ IsSide s.height

theorem standardSide_isSide : IsSide Project.standardSide := ⟨by decide, by decide⟩

theorem readInteger_yields : Yields readInteger fun n => n ≤ signedTop := by
  intro cs n rest h
  unfold readInteger at h
  split at h
  · cases h
  · cases h
  · split at h
    · next hle =>
      cases h
      exact hle
    · cases h

theorem readSide_yields : Yields readSide IsSide := by
  intro cs side rest h
  obtain ⟨⟨n, after⟩, hn, heq⟩ := map_eq_ok h
  cases heq
  have hle := readInteger_yields hn
  by_cases hpos : 0 < n
  · rw [if_pos hpos]
    exact ⟨by omega, by omega⟩
  · rw [if_neg hpos]
    exact standardSide_isSide

theorem Size.fields_keep : ∀ field ∈ Size.fields, field.Keeps Size.InRange := by
  intro field hfield
  simp only [Size.fields, List.mem_cons, List.not_mem_nil, or_false] at hfield
  obtain rfl | rfl := hfield
  · exact FieldReader.keeps_of _ readSide_yields fun s n hs hn => ⟨hn, hs.2⟩
  · exact FieldReader.keeps_of _ readSide_yields fun s n hs hn => ⟨hs.1, hn⟩

namespace Project

theorem fields_keep : ∀ field ∈ fields, field.Keeps fun p : Project => p.size.InRange := by
  intro field hfield
  have hstandard : standard.size.InRange := ⟨standardSide_isSide, standardSide_isSide⟩
  simp only [fields, List.mem_cons, List.not_mem_nil, or_false] at hfield
  obtain rfl | rfl | rfl | rfl | rfl | rfl := hfield
  · exact FieldReader.keeps_of _ (readRecord_keeps Size.fields_keep _ hstandard) fun p s hp hs => hs
  -- the other fields do not touch the size
  all_goals exact FieldReader.keeps_of_store _ _ fun p _ hp => hp

/-- Whatever a document says, both sides are positive and fit into 64 bits with a sign. -/
theorem inRange_of_parse {text : String} {p : Project} (h : parse text = .ok p) :
    p.size.InRange := by
  have hstandard : standard.size.InRange := ⟨standardSide_isSide, standardSide_isSide⟩
  unfold parse readDocument at h
  split at h
  · cases h
  · next p' rest hread =>
    split at h
    · cases h
      exact readRecord_keeps fields_keep _ hstandard hread
    · cases h

end Project

/-! ## Members -/

theorem reads_side {n : ℕ} (hn : IsSide n) : Reads readSide (Document.whole n) (.ok n) := by
  intro rest hrest
  have hread : readInteger (' ' :: Document.whole n ++ rest) = .ok ((n : ℤ), rest) :=
    readInteger_whole hn.2 hrest.stops
  have hpos : (0 : ℤ) < n := by exact_mod_cast hn.1
  rw [readSide, hread]
  show Except.ok (if (0 : ℤ) < n then (n : ℤ).toNat else _, rest) = _
  rw [if_pos hpos, Int.toNat_natCast]
  rfl

theorem Size.fills {s : Size} (h : s.InRange) (start : Size) :
    Fills Size.fields [] start
      [("width", Document.whole s.width), ("height", Document.whole s.height)] (.ok s) :=
  .next ⟨rfl, rfl⟩ ((reads_side h.1).of _ _ _) (.last ⟨rfl, rfl⟩ ((reads_side h.2).of _ _ _))

/-- Whether both bounds have a form in a document. -/
def HeightRange.isFinite (r : HeightRange) : Bool := r.min.isFinite && r.max.isFinite

/-- The fault of a bound that is written as a word. -/
def boundFault : Fault := .invalidType .null "f32"

theorem HeightRange.fills (r start : HeightRange) :
    Fills HeightRange.fields [] start
      [("min", Document.number r.min), ("max", Document.number r.max)]
      (if r.isFinite then .ok r else .error boundFault) := by
  cases hmin : r.min.isFinite with
  | false =>
    rw [isFinite, hmin]
    exact .fault ⟨rfl, rfl⟩ ((reads_single_of_not_finite hmin).of _ _ _)
  | true =>
    refine .next ⟨rfl, rfl⟩ ((reads_single hmin).of _ _ _) ?_
    cases hmax : r.max.isFinite with
    | false =>
      rw [isFinite, hmin, hmax]
      exact .last ⟨rfl, rfl⟩ ((reads_single_of_not_finite hmax).of _ _ _)
    | true =>
      rw [isFinite, hmin, hmax]
      exact .last ⟨rfl, rfl⟩ ((reads_single hmax).of _ _ _)

theorem Outputs.fills (o start : Outputs) :
    Fills Outputs.fields [] start
      [("height", Document.string o.height), ("color", Document.string o.color)] (.ok o) :=
  .next ⟨rfl, rfl⟩ ((reads_text _ _).of _ _ _) (.last ⟨rfl, rfl⟩ ((reads_text _ _).of _ _ _))

theorem HeightPreset.choose_name (h : HeightPreset) : choose all name h.name = .ok h := by
  cases h <;> rfl

theorem ColorPreset.choose_name (c : ColorPreset) : choose all name c.name = .ok c := by
  cases c <;> rfl

theorem Sampling.choose_name (s : Sampling) : choose all name s.name = .ok s := by
  cases s <;> rfl

/-! ## Reloading -/

namespace Project

variable {p : Project}

open Document in
/-- What the members of a written project make of the standard one. -/
theorem fills (hsize : p.size.InRange) :
    Fills fields [] standard
      [("resolution", object 2 [("width", whole p.size.width), ("height", whole p.size.height)]),
        ("height_range", object 2 [("min", number p.range.min), ("max", number p.range.max)]),
        ("height", string p.height.name),
        ("color", string p.color.name),
        ("outputs",
          object 2 [("height", string p.outputs.height), ("color", string p.outputs.color)]),
        ("sampling", string p.sampling.name)]
      (if p.range.isFinite then .ok p else .error boundFault) := by
  have hrange := HeightRange.fills p.range standard.range
  refine .next ⟨rfl, rfl⟩ (((Size.fills hsize _).reads _ 2).of _ _ _) ?_
  cases hfinite : p.range.isFinite with
  | false =>
    rw [hfinite] at hrange
    exact .fault ⟨rfl, rfl⟩ ((hrange.reads _ 2).of _ _ _)
  | true =>
    rw [hfinite] at hrange
    refine .next ⟨rfl, rfl⟩ ((hrange.reads _ 2).of _ _ _) ?_
    refine .next ⟨rfl, rfl⟩ ((reads_choice p.height.choose_name).of _ _ _) ?_
    refine .next ⟨rfl, rfl⟩ ((reads_choice p.color.choose_name).of _ _ _) ?_
    refine .next ⟨rfl, rfl⟩ (((Outputs.fills p.outputs _).reads _ 2).of _ _ _) ?_
    exact .last ⟨rfl, rfl⟩ ((reads_choice p.sampling.choose_name).of _ _ _)

theorem parse_toText_eq (hsize : p.size.InRange) :
    parse p.toText = if p.range.isFinite then .ok p else .error boundFault := by
  have hread := (fills hsize).readRecord_object "struct Project" 1 []
  rw [List.append_nil] at hread
  have htext : p.toText.toList = p.spell := String.toList_ofList
  unfold parse readDocument
  rw [htext, spell, hread]
  cases p.range.isFinite <;> rfl

/-- Equality of settings has an exception: a bound that is no number. -/
theorem beq_self (hfinite : p.range.isFinite = true) : (p == p) = true := by
  obtain ⟨hmin, hmax⟩ := Bool.and_eq_true_iff.1 hfinite
  have hrange : (p.range == p.range) = true :=
    Bool.and_eq_true_iff.2 ⟨Binary.beq_self (Binary.isNaN_of_isFinite hmin),
      Binary.beq_self (Binary.isNaN_of_isFinite hmax)⟩
  show (p.size == p.size && p.range == p.range && p.height == p.height && p.color == p.color &&
    p.outputs == p.outputs && p.sampling == p.sampling) = true
  simp only [hrange, beq_self_eq_true, Bool.and_self]

theorem exists_of_any {ε : Type} {x : Except ε Project} {check : Project → Bool}
    (h : (x.toOption.any check) = true) : ∃ p, x = .ok p ∧ check p = true := by
  cases x with
  | error err => cases h
  | ok p => exact ⟨p, rfl, h⟩

/-- A project that comes from a document is written as a document that it comes from again, equal in
    every setting, unless a bound of its range is too large for single precision: such a bound is
    written as a word, and that document is refused. -/
theorem parse_toText {text : String} (h : parse text = .ok p) :
    (p.range.isFinite = true → ∃ q, parse p.toText = .ok q ∧ q = p ∧ (q == p) = true) ∧
      (p.range.isFinite = false → parse p.toText = .error (.invalidType .null "f32")) := by
  have hreload := parse_toText_eq (inRange_of_parse h)
  constructor
  · intro hfinite
    rw [hfinite] at hreload
    exact ⟨p, hreload, rfl, beq_self hfinite⟩
  · intro hfinite
    rw [hfinite] at hreload
    exact hreload

/-- A document with a side of zero and a path of awkward characters. -/
theorem parse_toText_awkward :
    ∃ p, parse "\x7b\"resolution\": [0, 7], \"outputs\": [\"a\\\"\\\\\\u0001.png\"]\x7d" = .ok p ∧
      p.size = ⟨1024, 7⟩ ∧ p.outputs.height = "a\"\\\x01.png" ∧
      ∃ q, parse p.toText = .ok q ∧ q = p ∧ (q == p) = true := by
  have h : ((parse
      "\x7b\"resolution\": [0, 7], \"outputs\": [\"a\\\"\\\\\\u0001.png\"]\x7d").toOption.any
      fun p => decide (p.size = ⟨1024, 7⟩ ∧ p.outputs.height = "a\"\\\x01.png" ∧
        p.range.isFinite = true)) = true := by
    decide +kernel
  obtain ⟨p, hp, hchecks⟩ := exists_of_any h
  obtain ⟨hsize, hpath, hfinite⟩ := of_decide_eq_true hchecks
  exact ⟨p, hp, hsize, hpath, (parse_toText hp).1 hfinite⟩

/-- A bound can be too large for single precision; the range is valid all the same. -/
theorem infinite_bound_refused :
    ∃ p, parse "\x7b\"height_range\":\x7b\"max\":1e39\x7d\x7d" = .ok p ∧
      p.validate.isOk = true ∧ ∀ q, parse p.toText ≠ .ok q := by
  have h : ((parse "\x7b\"height_range\":\x7b\"max\":1e39\x7d\x7d").toOption.any
      fun p => p.validate.isOk && !p.range.isFinite) = true := by
    decide +kernel
  obtain ⟨p, hp, hchecks⟩ := exists_of_any h
  obtain ⟨hvalid, hfinite⟩ := Bool.and_eq_true_iff.1 hchecks
  have hinfinite : p.range.isFinite = false := by simpa using hfinite
  have hreload := parse_toText_eq (inRange_of_parse hp)
  rw [hinfinite] at hreload
  refine ⟨p, hp, hvalid, fun q hq => ?_⟩
  rw [hreload] at hq
  cases hq

end Project

end Relief
