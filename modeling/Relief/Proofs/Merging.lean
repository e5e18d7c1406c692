import Relief.Command.Export
import Relief.Proofs.Limits
import Relief.Proofs.Reloading

set_option autoImplicit false

/-! # Merging: options over a project

Both commands take a project, from a file or the standard one, and lay their options over it. What
an option does is said once for all options (`Command.Sets`): it is not given, and its setting
stays, or it is given, and its setting is what its text says. A text that says nothing cannot be
given, because the values are checked while the command line is read (`Command.WellGiven`), so every
option that is given has its effect; only a size of zero counts as not given (`Command.SetsSide`).

The options that both commands know are read alike (`Command.parse_append`) and merged alike. The
range is looked at when all options have been merged, and before any file is touched. Nothing that
happens later is a failure for the range, and what a command says tells such a failure from all
others (`Error.report_ne`). -/

namespace Relief

/-! ## Reading command lines -/

namespace Command

variable {specs : List OptionSpec} {given given' : Given} {name : String}

/-- More options do not change how a command line is read that does without them. -/
theorem parse_append (more : List OptionSpec) (given : Given) (arguments : List String)
    (h : ∀ argument, parse specs given arguments ≠ .error (.unknownOption argument)) :
    parse (specs ++ more) given arguments = parse specs given arguments := by
  fun_induction parse specs given arguments with
  | case1 => rfl
  | case6 | case14 => exact absurd rfl (h _)
  | _ =>
      -- the option that was found first is still the first one
      conv_lhs => unfold parse
      simp_all [List.find?_append]

/-- The option of a name. -/
def spec? (specs : List OptionSpec) (name : String) : Option OptionSpec :=
  specs.find? fun spec => spec.name == name

/-- Whether all that is given are options with values that they accept. -/
def WellGiven (specs : List OptionSpec) (given : Given) : Prop :=
  ∀ name text, given.lookup name = some text →
    ∃ spec, spec? specs name = some spec ∧ spec.kind.accepts text = true

theorem WellGiven.note {spec : OptionSpec} {value : String} (h : WellGiven specs given)
    (hspec : spec? specs name = some spec) (hnote : note spec value given = .ok given') :
    WellGiven specs given' := by
  have hmatch := List.find?_some hspec
  have hname : spec.name = name := beq_iff_eq.1 hmatch
  unfold Command.note at hnote
  split at hnote
  · cases hnote
  · split at hnote
    · next haccepts =>
      cases hnote
      intro key text hlookup
      rw [List.lookup_cons] at hlookup
      split at hlookup
      · next heq =>
        cases hlookup
        obtain rfl : key = name := (beq_iff_eq.1 heq).trans hname
        exact ⟨spec, hspec, haccepts⟩
      · exact h key text hlookup
    · cases hnote

/-- **A command line that can be followed gives nothing else.** -/
theorem WellGiven.parse {arguments : List String} (h : WellGiven specs given)
    (hparse : parse specs given arguments = .ok (.run given')) : WellGiven specs given' := by
  fun_induction Command.parse specs given arguments with
  | case1 | case2 =>
      cases hparse
      exact h
  | case7 _ _ _ _ _ _ _ _ _ hspec _ _ hnote _ ih => exact ih (h.note hspec hnote) hparse
  | case10 _ _ _ _ _ _ _ _ hspec _ _ _ _ hnote _ ih => exact ih (h.note hspec hnote) hparse
  | _ => cases hparse

theorem wellGiven_of_parse {arguments : List String}
    (hparse : parse specs [] arguments = .ok (.run given)) : WellGiven specs given :=
  WellGiven.parse (fun _ _ h => by cases h) hparse

theorem WellGiven.lookup_eq_none (h : WellGiven specs given) (hspec : spec? specs name = none) :
    given.lookup name = none := by
  cases hlookup : given.lookup name with
  | none => rfl
  | some text =>
      obtain ⟨spec, hsome, -⟩ := h name text hlookup
      rw [hspec] at hsome
      cases hsome

/-! ## What an option sets -/

/-- What an option makes of a setting: nothing unless it is given, and then what its text says. -/
def Sets {α : Type} (given : Given) (name : String) (read : String → Option α) (before after : α) :
    Prop :=
  (given.lookup name).elim (after = before) fun text => read text = some after

/-- What an option makes of a side; zero counts as not given. -/
def SetsSide (given : Given) (name : String) (before after : Nat) : Prop :=
  (given.lookup name).elim (after = before) fun text =>
    ∃ n, Decimal.size? text = some n ∧ after = if 0 < n then n else before

/-- A kind of values is read by a function if it accepts only what the function can read. -/
def ValueKind.ReadBy {α : Type} (kind : ValueKind) (read : String → Option α) : Prop :=
  ∀ text, kind.accepts text = true → (read text).isSome = true

theorem readBy_size : ValueKind.size.ReadBy Decimal.size? := fun _ h => h

theorem readBy_number : ValueKind.number.ReadBy Decimal.single? := fun _ h => h

theorem readBy_name {α : Type} (values : List α) (nameOf : α → String) :
    (ValueKind.name (values.map nameOf)).ReadBy (named? values nameOf false) := by
  intro text h
  have hmem : text ∈ values.map nameOf := List.contains_iff_mem.1 h
  obtain ⟨value, hvalue, hname⟩ := List.mem_map.1 hmem
  exact List.find?_isSome.2 ⟨value, hvalue, beq_iff_eq.2 hname⟩

section

variable {α : Type} {read : String → Option α} {kind : ValueKind}

theorem WellGiven.reads (h : WellGiven specs given) (hspec : spec? specs name = some ⟨name, kind⟩)
    (hread : kind.ReadBy read) {text : String} (htext : given.lookup name = some text) :
    ∃ value, read text = some value := by
  obtain ⟨spec, hsome, haccepts⟩ := h name text htext
  cases hspec.symm.trans hsome
  exact Option.isSome_iff_exists.1 (hread text haccepts)

theorem WellGiven.sets (h : WellGiven specs given) (hspec : spec? specs name = some ⟨name, kind⟩)
    (hread : kind.ReadBy read) (before : α) :
    Sets given name read before (((given.lookup name).bind read).getD before) := by
  unfold Sets
  cases htext : given.lookup name with
  | none => rfl
  | some text =>
      obtain ⟨value, hvalue⟩ := h.reads hspec hread htext
      rw [Option.bind_some, hvalue]
      exact hvalue

/-- An option whose text is the setting sets what it is given. -/
theorem sets_text (given : Given) (name : String) (before : String) :
    Sets given name some before ((given.text? name).getD before) := by
  unfold Sets Given.text?
  cases given.lookup name <;> rfl

theorem WellGiven.setsSide (h : WellGiven specs given)
    (hspec : spec? specs name = some ⟨name, .size⟩) (before : Nat) :
    SetsSide given name before (((given.size? name).bind positive?).getD before) := by
  unfold SetsSide Given.size?
  cases htext : given.lookup name with
  | none => rfl
  | some text =>
      obtain ⟨n, hn⟩ := h.reads hspec readBy_size htext
      refine ⟨n, hn, ?_⟩
      rw [Option.bind_some, hn, Option.bind_some, positive?]
      split <;> rfl

end

theorem SetsSide.pos {before after : Nat} (h : SetsSide given name before after)
    (hbefore : 0 < before) : 0 < after := by
  unfold SetsSide at h
  cases htext : given.lookup name with
  | none =>
      rw [htext] at h
      exact h.symm ▸ hbefore
  | some text =>
      rw [htext] at h
      obtain ⟨n, -, rfl⟩ := h
      split
      · assumption
      · exact hbefore

/-! ## Where a command starts -/

/-- The project that options are laid over. -/
def loaded (given : Given) (fs : Files) : Except Error Project :=
  (given.text? "project").elim (.ok Project.standard) (Project.load fs)

theorem startingProject_eq (given : Given) (fs : Files) :
    startingProject given fs = (loaded given fs).map (mergeShared given) := by
  unfold startingProject loaded
  cases given.text? "project" <;> rfl

/-- No project is without pixels. -/
theorem pos_of_loaded {fs : Files} {p : Project} (h : loaded given fs = .ok p) :
    0 < p.size.width ∧ 0 < p.size.height := by
  unfold loaded at h
  cases hpath : given.text? "project" with
  | none =>
      rw [hpath] at h
      cases h
      exact ⟨by decide, by decide⟩
  | some path =>
      rw [hpath, Option.elim_some, Project.load] at h
      split at h
      · cases h
      · rw [Project.ofText] at h
        split at h
        · next hparse =>
          cases h
          obtain ⟨⟨hwidth, -⟩, hheight, -⟩ := Project.inRange_of_parse hparse
          exact ⟨hwidth, hheight⟩
        · cases h

/-- What the common options make of a project. -/
structure MergedShared (given : Given) (p q : Project) : Prop where
  width : SetsSide given "width" p.size.width q.size.width
  height : SetsSide given "height" p.size.height q.size.height
  preset : Sets given "height-preset" (HeightPreset.ofName? false) p.height q.height

theorem mergeShared_eq (given : Given) (p : Project) : mergeShared given p = { p with
    size := ⟨((given.size? "width").bind positive?).getD p.size.width,
      ((given.size? "height").bind positive?).getD p.size.height⟩
    height := ((given.text? "height-preset").bind
      (HeightPreset.ofName? false)).getD p.height } := by
  unfold mergeShared
  cases (given.size? "width").bind positive? <;> cases (given.size? "height").bind positive? <;>
    cases (given.text? "height-preset").bind (HeightPreset.ofName? false) <;> rfl

theorem mergedShared {more : List OptionSpec} (h : WellGiven (sharedOptions ++ more) given)
    (p : Project) : MergedShared given p (mergeShared given p) := by
  rw [mergeShared_eq]
  exact ⟨h.setsSide rfl _, h.setsSide rfl _, h.sets rfl (readBy_name _ _) _⟩

/-! ## The export command -/

namespace Export

/-- What all options of the export make of a project. -/
structure Merged (given : Given) (p q : Project) : Prop extends MergedShared given p q where
  color : Sets given "color-preset" (ColorPreset.ofName? false) p.color q.color
  min : Sets given "min" Decimal.single? p.range.min q.range.min
  max : Sets given "max" Decimal.single? p.range.max q.range.max
  heightOut : Sets given "height-out" some p.outputs.height q.outputs.height
  colorOut : Sets given "color-out" some p.outputs.color q.outputs.color
  sampling : q.sampling = p.sampling

theorem merge_eq (given : Given) (p : Project) : merge given p = { p with
    range := ⟨(given.number? "min").getD p.range.min, (given.number? "max").getD p.range.max⟩
    color := ((given.text? "color-preset").bind (ColorPreset.ofName? false)).getD p.color
    outputs := ⟨(given.text? "height-out").getD p.outputs.height,
      (given.text? "color-out").getD p.outputs.color⟩ } := by
  unfold merge
  cases (given.text? "color-preset").bind (ColorPreset.ofName? false) <;>
    cases given.number? "min" <;> cases given.number? "max" <;>
    cases given.text? "height-out" <;> cases given.text? "color-out" <;> rfl

theorem merged (h : WellGiven options given) (p : Project) :
    Merged given p (merge given (mergeShared given p)) := by
  have hshared := mergedShared h p
  rw [mergeShared_eq] at hshared ⊢
  rw [merge_eq]
  exact { hshared with
    color := h.sets rfl (readBy_name _ _) _
    min := h.sets rfl readBy_number _
    max := h.sets rfl readBy_number _
    heightOut := sets_text _ _ _
    colorOut := sets_text _ _ _
    sampling := rfl }

end Export

/-! ## The preview command -/

namespace Preview

/-- What all options of the preview make of a project. -/
structure Merged (given : Given) (p q : Project) : Prop extends MergedShared given p q where
  sampling : Sets given "sampling" (Sampling.ofName? false) p.sampling q.sampling
  color : q.color = p.color
  range : q.range = p.range
  outputs : q.outputs = p.outputs

theorem merge_eq (given : Given) (p : Project) : merge given p = { p with
    sampling := ((given.text? "sampling").bind (Sampling.ofName? false)).getD p.sampling } := by
  unfold merge
  cases (given.text? "sampling").bind (Sampling.ofName? false) <;> rfl

theorem merged (h : WellGiven options given) (p : Project) :
    Merged given p (merge given (mergeShared given p)) := by
  have hshared := mergedShared h p
  rw [mergeShared_eq] at hshared ⊢
  rw [merge_eq]
  exact { hshared with
    sampling := h.sets rfl (readBy_name _ _) _
    color := rfl
    range := rfl
    outputs := rfl }

end Preview

end Command

/-! ## Failures that are not about the range -/

/-- Whether a failure is about the range. -/
def Error.IsOfRange : Error → Prop
  | .invalidRange _ _ => True
  | _ => False

/-- The classes of the failures that are not about the range. -/
theorem Error.kind_mem {err : Error} (h : ¬ err.IsOfRange) :
    err.kind ∈ ["Core", "Io", "Png", "Image", "Config", "RowLength", "Cancelled"] := by
  cases err with
  | invalidRange => exact absurd trivial h
  | _ => exact List.contains_iff_mem.1 rfl

/-- A report begins with the class of its failure. -/
theorem Error.exists_report (err : Error) :
    ∃ rest, err.report.toList = "Error: ".toList ++ (err.kind.toList ++ rest) := by
  unfold report
  simp only [String.toList_append, List.append_assoc]
  exact ⟨_, rfl⟩

/-- What a command says tells whether its failure is about the range. -/
theorem Error.report_ne {err : Error} (h : ¬ err.IsOfRange) (min max : Float32) :
    err.report ≠ (Error.invalidRange min max).report := by
  intro heq
  obtain ⟨rest, hrest⟩ := err.exists_report
  obtain ⟨rest', hrest'⟩ := (Error.invalidRange min max).exists_report
  rw [heq, hrest', List.append_cancel_left_eq] at hrest
  have hkinds : ∀ kind ∈ ["Core", "Io", "Png", "Image", "Config", "RowLength", "Cancelled"],
      kind.toList.take 2 ≠ "InvalidHeightRange".toList.take 2 ∧ 2 ≤ kind.toList.length := by decide
  obtain ⟨hne, hlength⟩ := hkinds _ (kind_mem h)
  have htake := congrArg (List.take 2) hrest
  have hrange : 2 ≤ "InvalidHeightRange".toList.length := by decide
  rw [List.take_append_of_le_length hlength, kind, List.take_append_of_le_length hrange] at htake
  exact hne htake.symm

/-- Creating an image fails for its path or its size. -/
theorem ImageStream.not_isOfRange_of_create {fs fs' : Files} {path : String} {size : Size}
    {pixelBytes : Nat} {err : Error} (h : create fs path size pixelBytes = (.error err, fs')) :
    ¬ err.IsOfRange := by
  unfold create at h
  split at h
  · cases h
    exact id
  · dsimp only at h
    split at h
    · cases h
      exact id
    · split at h
      · cases h
        exact id
      · cases h

theorem MapWriter.not_isOfRange_of_create {fs fs' : Files} {size : Size}
    {heightPath colorPath : String} {err : Error}
    (h : create fs size heightPath colorPath = (.error err, fs')) : ¬ err.IsOfRange := by
  unfold create at h
  split at h
  · next hheights =>
    cases h
    exact ImageStream.not_isOfRange_of_create hheights
  · split at h
    · next hcolors =>
      cases h
      exact ImageStream.not_isOfRange_of_create hcolors
    · cases h

theorem ImageStream.not_isOfRange_of_finishError? {stream : ImageStream} {err : Error}
    (h : stream.finishError? = some err) : ¬ err.IsOfRange := by
  unfold finishError? at h
  split at h
  · cases h
  · cases h
    exact id

/-- A writer that has refused no row fails to finish because one of its files is not complete. -/
theorem MapWriter.not_isOfRange_of_result {w : MapWriter} (hfault : w.fault = none) {err : Error}
    (h : w.result = .error err) : ¬ err.IsOfRange := by
  unfold RowWriter.result at h
  rw [hfault] at h
  cases hheights : ByteStream.finishError? w.heights with
  | some err' =>
      rw [hheights] at h
      cases h
      exact ImageStream.not_isOfRange_of_finishError? hheights
  | none =>
      cases hcolors : ByteStream.finishError? w.colors with
      | some err' =>
          rw [hheights, hcolors] at h
          cases h
          exact ImageStream.not_isOfRange_of_finishError? hcolors
      | none =>
          rw [hheights, hcolors] at h
          cases h

namespace Project

variable {p : Project}

theorem validate_of_isValid (h : p.range.isValid = true) : p.validate = .ok () := by
  rw [validate, HeightRange.validate, if_pos h]

theorem validate_of_not_isValid (h : p.range.isValid = false) :
    p.validate = .error (.invalidRange p.range.min p.range.max) := by
  rw [validate, HeightRange.validate, h]
  rfl

/-- An export with a valid range does not fail for its range. -/
theorem not_isOfRange_of_exportMaps (hrange : p.validate = .ok ()) {fs fs' : Files} {err : Error}
    (h : p.exportMaps fs = (.error err, fs')) : ¬ err.IsOfRange := by
  cases hcreate : MapWriter.create fs p.size p.outputs.height p.outputs.color with
  | mk created fs₁ =>
      cases created with
      | error err' =>
          simp only [exportMaps, hrange, hcreate] at h
          cases h
          exact MapWriter.not_isOfRange_of_create hcreate
      | ok w₀ =>
          obtain ⟨⟨field, hfield⟩, color, hcolor⟩ := p.exprs_compile
          obtain ⟨_, _, -, -, rfl, -⟩ := MapWriter.create_eq_ok hcreate
          obtain ⟨w, hfinish, hfault, -⟩ := exportMaps_of_create hrange hfield hcolor hcreate
          exact MapWriter.not_isOfRange_of_result hfault (Prod.mk.inj (hfinish.symm.trans h)).1

end Project

namespace RenderJob

variable {σ : Type} {cancelled : σ → Bool} {r : TileRenderer σ} {s : σ} {err : Error}

theorem not_isOfRange_of_ticks {total left rendered : Nat}
    (h : (ticks cancelled total left rendered r s).result = .error (.error err)) :
    ¬ err.IsOfRange := by
  fun_induction ticks cancelled total left rendered r s with
  | case1 | case3 =>
      cases h
      exact id
  | case2 => cases h
  | case4 _ _ _ _ _ _ _ _ ih => exact ih h

theorem not_isOfRange_of_run {job : RenderJob}
    (h : (job.run cancelled r s).result = .error (.error err)) : ¬ err.IsOfRange := by
  unfold run at h
  split at h
  · cases h
    exact id
  · split at h
    · cases h
    · unfold close at h
      split at h
      · exact not_isOfRange_of_ticks h
      · cases h
        exact id

end RenderJob

theorem Mosaic.not_isOfRange_of_save {m : Mosaic} {fs fs' : Files} {path : String} {err : Error}
    (h : m.save fs path = (.error err, fs')) : ¬ err.IsOfRange := by
  unfold save at h
  split at h
  · cases h
    exact id
  · split at h
    · cases h
      exact id
    · split at h
      · cases h
        exact id
      · split at h
        · cases h
          exact id
        · split at h
          · cases h
            exact id
          · split at h <;> cases h
            exact id

namespace Command

/-- Whether a command has ended because of a range. -/
def Outcome.IsRangeFailure (outcome : Outcome) : Prop :=
  ∃ min max fs, outcome = failed (.invalidRange min max) fs

theorem not_isRangeFailure_of_failed {err : Error} (h : ¬ err.IsOfRange) (fs : Files) :
    ¬ (failed err fs).IsRangeFailure := by
  rintro ⟨min, max, fs', heq⟩
  exact Error.report_ne h min max (congrArg Outcome.report heq)

theorem not_isRangeFailure_of_code {outcome : Outcome} (h : outcome.code ≠ 1) :
    ¬ outcome.IsRangeFailure := by
  rintro ⟨min, max, fs', rfl⟩
  exact h rfl

/-- How a command judges the range of the project that it has merged: a range that is not valid ends
    it before any file is touched, and a valid one is never what it fails for. -/
structure Judges (outcome : Outcome) (p : Project) (fs : Files) : Prop where
  invalid : p.range.isValid = false →
    outcome = failed (.invalidRange p.range.min p.range.max) fs
  valid : p.range.isValid = true → ¬ outcome.IsRangeFailure

theorem Export.judges {given : Given} {fs : Files} {p : Project}
    (hproject : project given fs = .ok p) : Judges (follow given fs) p fs := by
  unfold follow
  constructor
  · intro hinvalid
    simp only [hproject, Project.exportMaps, Project.validate_of_not_isValid hinvalid]
  · intro hvalid
    cases hexport : p.exportMaps fs with
    | mk result fs' =>
        simp only [hproject, hexport]
        cases result with
        | error err =>
            have hvalidate := Project.validate_of_isValid hvalid
            exact not_isRangeFailure_of_failed
              (Project.not_isOfRange_of_exportMaps hvalidate hexport) fs'
        | ok => exact not_isRangeFailure_of_code Nat.zero_ne_one

namespace Preview

theorem not_isRangeFailure_saveMosaic (m : Mosaic) (out : String) (fs : Files) :
    ¬ (saveMosaic m out fs).IsRangeFailure := by
  unfold saveMosaic
  split
  · next hsave => exact not_isRangeFailure_of_failed (Mosaic.not_isOfRange_of_save hsave) _
  · exact not_isRangeFailure_of_code Nat.zero_ne_one

theorem not_isRangeFailure_render (p : Project) (tick : Nat) (limit : Option Nat) (out : String)
    (fs : Files) : ¬ (render p tick limit out fs).IsRangeFailure := by
  unfold render
  split
  · exact not_isRangeFailure_of_failed id _
  · dsimp only
    split
    · exact not_isRangeFailure_saveMosaic _ _ _
    · exact not_isRangeFailure_saveMosaic _ _ _
    · next hresult =>
      exact not_isRangeFailure_of_failed (RenderJob.not_isOfRange_of_run hresult) _
    · have hcode : 101 ≠ 1 := by decide
      exact not_isRangeFailure_of_code hcode

theorem judges {given : Given} {fs : Files} {p : Project} (hproject : project given fs = .ok p) :
    Judges (follow given fs) p fs := by
  unfold follow
  constructor
  · intro hinvalid
    simp only [hproject, Project.validate_of_not_isValid hinvalid]
  · intro hvalid
    simp only [hproject, Project.validate_of_isValid hvalid]
    exact not_isRangeFailure_render _ _ _ _ _

end Preview

/-! ## Both commands -/

theorem follow_of_loaded_error {given : Given} {fs : Files} {err : Error}
    (h : loaded given fs = .error err) :
    Export.follow given fs = failed err fs ∧ Preview.follow given fs = failed err fs := by
  have hstart : startingProject given fs = .error err := by
    rw [startingProject_eq, h]
    rfl
  unfold Export.follow Preview.follow Export.project Preview.project
  rw [hstart]
  exact ⟨rfl, rfl⟩

theorem projects_of_loaded {given : Given} {fs : Files} {p : Project}
    (h : loaded given fs = .ok p) :
    Export.project given fs = .ok (Export.merge given (mergeShared given p)) ∧
      Preview.project given fs = .ok (Preview.merge given (mergeShared given p)) := by
  unfold Export.project Preview.project
  rw [startingProject_eq, h]
  exact ⟨rfl, rfl⟩

/-- The common options decide where a command starts, and what it makes of the common settings. -/
theorem shared_of_lookup_eq {given given' : Given}
    (h : ∀ spec ∈ sharedOptions, given.lookup spec.name = given'.lookup spec.name) (fs : Files) :
    loaded given fs = loaded given' fs ∧ mergeShared given = mergeShared given' := by
  have hproject := h ⟨"project", .path⟩ (by simp [sharedOptions])
  have hwidth := h ⟨"width", .size⟩ (by simp [sharedOptions])
  have hheight := h ⟨"height", .size⟩ (by simp [sharedOptions])
  have hpreset := h ⟨"height-preset", .name (HeightPreset.all.map HeightPreset.name)⟩
    (by simp [sharedOptions])
  constructor
  · simp only [loaded, Given.text?, hproject]
  · funext p
    simp only [mergeShared, Given.size?, Given.text?, hwidth, hheight, hpreset]

/-- Options that both commands know are all that is given: the commands have the same project. -/
theorem project_eq_of_shared {given : Given} (h : WellGiven sharedOptions given) (fs : Files) :
    Export.project given fs = Preview.project given fs := by
  have hnone (name : String) (hname : spec? sharedOptions name = none) : given.text? name = none :=
    h.lookup_eq_none hname
  have hnumber (name : String) (hname : spec? sharedOptions name = none) :
      given.number? name = none := by
    rw [Given.number?, h.lookup_eq_none hname]
    rfl
  have hmerge (p : Project) : Export.merge given p = Preview.merge given p := by
    rw [Export.merge_eq, Preview.merge_eq, hnone "color-preset" rfl, hnone "height-out" rfl,
      hnone "color-out" rfl, hnone "sampling" rfl, hnumber "min" rfl, hnumber "max" rfl]
    rfl
  unfold Export.project Preview.project
  rw [funext hmerge]

/-- **Both commands merge their options alike.** A command line of options that both know is read
    alike, and makes the same project, or fails for the same reason. On any two command lines that
    agree on these options the commands fail alike to load their project, or have projects of the
    same size, with sides that are not zero, and of the same heights, which differ from the loaded
    one by what the options that are given set. The range is judged after the options: if it is not
    valid, no file is touched, and if it is, the command does not fail for it. -/
theorem merge_alike (fs : Files) :
    (∀ arguments, (∀ argument,
        parse sharedOptions [] arguments ≠ .error (.unknownOption argument)) →
      parse Export.options [] arguments = parse sharedOptions [] arguments ∧
      parse Preview.options [] arguments = parse sharedOptions [] arguments ∧
      ∀ given, parse sharedOptions [] arguments = .ok (.run given) →
        Export.project given fs = Preview.project given fs) ∧
    ∀ (exported previewed : List String) (given given' : Given),
      parse Export.options [] exported = .ok (.run given) →
      parse Preview.options [] previewed = .ok (.run given') →
      (∀ spec ∈ sharedOptions, given.lookup spec.name = given'.lookup spec.name) →
      (∀ err, loaded given fs = .error err →
        Export.run exported fs = failed err fs ∧ Preview.run previewed fs = failed err fs) ∧
      ∀ p, loaded given fs = .ok p → ∃ q q' : Project,
        Export.project given fs = .ok q ∧ Preview.project given' fs = .ok q' ∧
        q.size = q'.size ∧ q.height = q'.height ∧ 0 < q.size.width ∧ 0 < q.size.height ∧
        Export.Merged given p q ∧ Preview.Merged given' p q' ∧
        Judges (Export.run exported fs) q fs ∧ Judges (Preview.run previewed fs) q' fs := by
  refine ⟨fun arguments hknown => ⟨parse_append _ _ _ hknown, parse_append _ _ _ hknown,
    fun given hparse => project_eq_of_shared (wellGiven_of_parse hparse) fs⟩, ?_⟩
  intro exported previewed given given' hexported hpreviewed hagree
  obtain ⟨hloaded, hshared⟩ := shared_of_lookup_eq hagree fs
  have hexport : Export.run exported fs = Export.follow given fs := by
    unfold Export.run
    rw [hexported]
  have hpreview : Preview.run previewed fs = Preview.follow given' fs := by
    unfold Preview.run
    rw [hpreviewed]
  rw [hexport, hpreview]
  constructor
  · intro err herr
    exact ⟨(follow_of_loaded_error herr).1, (follow_of_loaded_error (hloaded ▸ herr)).2⟩
  · intro p hp
    have hq := (projects_of_loaded hp).1
    have hq' := (projects_of_loaded (hloaded ▸ hp)).2
    have hmerged := Export.merged (wellGiven_of_parse hexported) p
    obtain ⟨hwidth, hheight⟩ := pos_of_loaded hp
    refine ⟨_, _, hq, hq', ?_, ?_, hmerged.width.pos hwidth, hmerged.height.pos hheight, hmerged,
      Preview.merged (wellGiven_of_parse hpreviewed) p, Export.judges hq, Preview.judges hq'⟩
    · rw [Export.merge_eq, Preview.merge_eq, hshared]
    · rw [Export.merge_eq, Preview.merge_eq, hshared]

/-- A range that is not valid, in a file: the export repairs it by an option, and the preview fails
    for it and leaves the files alone. The width of zero counts as not given. -/
theorem merge_alike_repaired_range :
    let fs := Files.empty.put ["p.json"]
      (.text "\x7b\"height_range\": [1, 0], \"resolution\": [3, 2]\x7d")
    let previewed :=
      ["--project=p.json", "--width", "0", "--height", "5", "--height-preset", "dome"]
    let given : Given :=
      [("height-preset", "dome"), ("height", "5"), ("width", "0"), ("project", "p.json")]
    parse sharedOptions [] previewed = .ok (.run given) ∧
    Export.project given fs = Preview.project given fs ∧
    ¬ (Export.run (previewed ++ ["--max", "2"]) fs).IsRangeFailure ∧
    ∃ q, Preview.project given fs = .ok q ∧ q.size = ⟨3, 5⟩ ∧ q.height = .dome ∧
      Preview.run previewed fs = failed (.invalidRange q.range.min q.range.max) fs := by
  intro fs previewed given
  have hshared : parse sharedOptions [] previewed = .ok (.run given) :=
    eq_ok_of_given? (by decide +kernel)
  have hexported : parse Export.options [] (previewed ++ ["--max", "2"])
      = .ok (.run (("max", "2") :: given)) := eq_ok_of_given? (by decide +kernel)
  have hagree : ∀ spec ∈ sharedOptions,
      List.lookup spec.name (("max", "2") :: given) = given.lookup spec.name := by
    decide
  have hload : ((loaded (("max", "2") :: given) fs).toOption.any fun _ => true) = true := by
    decide +kernel
  have hexport : ((Export.project (("max", "2") :: given) fs).toOption.any
      fun q => q.range.isValid) = true := by
    decide +kernel
  have hpreview : ((Preview.project given fs).toOption.any fun q => decide
      (q.size = ⟨3, 5⟩ ∧ q.height = .dome ∧ q.range.isValid = false)) = true := by
    decide +kernel
  obtain ⟨p, hp, -⟩ := Project.exists_of_any hload
  obtain ⟨halike, hmerged⟩ := merge_alike fs
  obtain ⟨-, hread, hprojects⟩ := halike previewed (by rw [hshared]; exact fun _ h => by cases h)
  obtain ⟨q, q', hq, hq', -, -, -, -, -, -, hjudge, hjudge'⟩ :=
    (hmerged _ previewed _ given hexported (hread.trans hshared) hagree).2 p hp
  obtain ⟨_, hq₁, hvalid⟩ := Project.exists_of_any hexport
  obtain ⟨_, hq₂, hchecks⟩ := Project.exists_of_any hpreview
  cases hq.symm.trans hq₁
  cases hq'.symm.trans hq₂
  obtain ⟨hsize, hheight, hinvalid⟩ := of_decide_eq_true hchecks
  exact ⟨hshared, hprojects given hshared, hjudge.valid hvalid, q', hq', hsize, hheight,
    hjudge'.invalid hinvalid⟩

end Command

end Relief
