import Relief.Files

set_option autoImplicit false

/-! # Places: what a path leads to while files are written

Which place a path leads to depends on the directories there are, and on nothing else of the files
(`SameDirectories.create?_iff`). A walk along a path only visits directories below directories
(`Reached`), so the place of a file that is created has a directory at every place above it
(`rooted_of_create?`), and putting a file there makes no directory and loses none
(`sameDirectories_put`). While files are created and written, the paths to them and to all others
therefore lead where they led before, and what is read at a path is what was put last at its place
(`read?_of_create?`, `content?_put_self`, `content?_put_of_ne`). -/

namespace Relief.Files

variable {fs fs' : Files} {place q : FilePlace} {content : FileContent} {path : String}

/-! ## Contents -/

theorem content?_put_self (fs : Files) (place : FilePlace) (content : FileContent) :
    (fs.put place content).content? place = some content := by
  simp [content?, put]

theorem content?_put_of_ne (fs : Files) (content : FileContent) (hne : q ≠ place) :
    (fs.put place content).content? q = fs.content? q := by
  simp only [content?, put, List.find?_cons, beq_eq_false_iff_ne.2 hne.symm, List.find?_filter]
  congr 2
  funext entry
  by_cases hentry : entry.1 = q
  · simp [hentry, hne]
  · simp [hentry]

/-! ## Directories -/

theorem isDirectory_iff : fs.isDirectory q = true ↔ q = FilePlace.root ∨ (∀ name ∈ q, name = "..") ∨
    q ∈ fs.directories ∨ ∃ entry ∈ fs.entries, q <+: entry.1 ∧ q.length < entry.1.length := by
  simp [isDirectory, or_assoc]

/-- Whether every place above a place is a directory. -/
def Rooted (fs : Files) (place : FilePlace) : Prop :=
  ∀ q, q <+: place → q ≠ place → fs.isDirectory q = true

/-- Whether the same places are directories. -/
def SameDirectories (fs fs' : Files) : Prop := ∀ q, fs'.isDirectory q = fs.isDirectory q

theorem SameDirectories.refl (fs : Files) : SameDirectories fs fs := fun _ => rfl

theorem SameDirectories.trans {fs₁ fs₂ fs₃ : Files} (h : SameDirectories fs₁ fs₂)
    (h' : SameDirectories fs₂ fs₃) : SameDirectories fs₁ fs₃ := fun q => (h' q).trans (h q)

theorem SameDirectories.rooted (h : SameDirectories fs fs') (hplace : fs.Rooted place) :
    fs'.Rooted place := by
  intro q habove hne
  rw [h q]
  exact hplace q habove hne

/-- **A file that is put below directories makes no directory and loses none.** -/
theorem sameDirectories_put (hroot : fs.Rooted place) (content : FileContent) :
    SameDirectories fs (fs.put place content) := by
  intro q
  refine Bool.eq_iff_iff.2 ⟨?_, ?_⟩
  · intro h
    rcases isDirectory_iff.1 h with h | h | h | ⟨entry, hentry, habove, hlength⟩
    · exact isDirectory_iff.2 (.inl h)
    · exact isDirectory_iff.2 (.inr (.inl h))
    · exact isDirectory_iff.2 (.inr (.inr (.inl h)))
    · rcases List.mem_cons.1 hentry with rfl | hold
      · refine hroot q habove ?_
        rintro rfl
        exact Nat.lt_irrefl _ hlength
      · exact isDirectory_iff.2
          (.inr (.inr (.inr ⟨entry, (List.mem_filter.1 hold).1, habove, hlength⟩)))
  · intro h
    rcases isDirectory_iff.1 h with h | h | h | ⟨entry, hentry, habove, hlength⟩
    · exact isDirectory_iff.2 (.inl h)
    · exact isDirectory_iff.2 (.inr (.inl h))
    · exact isDirectory_iff.2 (.inr (.inr (.inl h)))
    · refine isDirectory_iff.2 (.inr (.inr (.inr ?_)))
      by_cases hplace : entry.1 = place
      · -- The entry is replaced by the new one, at the same place.
        exact ⟨(place, content), List.mem_cons_self .., hplace ▸ habove, hplace ▸ hlength⟩
      · exact ⟨entry, List.mem_cons_of_mem _ (List.mem_filter.2 ⟨hentry, by simpa using hplace⟩),
          habove, hlength⟩

/-- So files may be put one after the other, each below directories that were there before. -/
theorem SameDirectories.put (h : SameDirectories fs fs') (hroot : fs.Rooted place)
    (content : FileContent) : SameDirectories fs (fs'.put place content) :=
  h.trans (sameDirectories_put (h.rooted hroot) content)

/-! ## Walks -/

/-- Whether a place and every place above it are directories. -/
def Reached (fs : Files) (place : FilePlace) : Prop :=
  ∀ q, q <+: place → fs.isDirectory q = true

/-- A path counts from a directory. -/
theorem reached_startOf (fs : Files) (path : String) : fs.Reached (startOf path) := by
  intro q hq
  rw [isDirectory_iff]
  unfold startOf at hq
  split at hq
  · rcases List.prefix_cons_iff.1 hq with rfl | ⟨rest, rfl, hrest⟩
    · exact .inr (.inl nofun)
    · rw [List.prefix_nil.1 hrest]
      exact .inl rfl
  · rw [List.prefix_nil.1 hq]
    exact .inr (.inl nofun)

theorem Reached.parent (h : fs.Reached place) : fs.Reached place.parent := by
  intro q hq
  unfold FilePlace.parent at hq
  split at hq
  · next hroot =>
    exact h q (beq_iff_eq.1 hroot ▸ hq)
  · split at hq
    · next hup =>
      refine isDirectory_iff.2 (.inr (.inl ?_))
      intro name hname
      rcases List.mem_append.1 (hq.subset hname) with hold | hnew
      · exact beq_iff_eq.1 (List.all_eq_true.1 hup name hold)
      · exact List.mem_singleton.1 hnew
    · exact h q (hq.trans (List.dropLast_prefix place))

/-- A step along a name that leads anywhere ends at a directory, and there only. -/
theorem enter_eq_ok_iff {name : String} : fs.enter place name = .ok q ↔
    q = place.child name ∧ (Path.staysPut name = true ∨ name = ".." ∨
      name.utf8ByteSize ≤ nameLimit ∧ fs.isDirectory (place.child name) = true) := by
  have hcheck : (Path.staysPut name || name == "..") = true
      ↔ Path.staysPut name = true ∨ name = ".." := by simp
  unfold enter
  dsimp only
  split
  · next hfree =>
    rw [hcheck] at hfree
    grind
  · next hbound =>
    rw [hcheck] at hbound
    grind

theorem enterAll_cons_eq_ok_iff {name : String} {names : List String} :
    fs.enterAll place (name :: names) = .ok q ↔
      ∃ next, fs.enter place name = .ok next ∧ fs.enterAll next names = .ok q := by
  rw [enterAll]
  cases fs.enter place name with
  | ok next => simp
  | error err => simp

/-- A name that is walked along leads below the place, up, or nowhere. -/
theorem child_of_bound {name : String} (hstays : Path.staysPut name = false) (hup : name ≠ "..") :
    place.child name = place ++ [name] := by
  simp [FilePlace.child, hstays, hup]

theorem Reached.concat {name : String} (h : fs.Reached place)
    (hdirectory : fs.isDirectory (place ++ [name]) = true) : fs.Reached (place ++ [name]) := by
  intro q hq
  rcases List.prefix_concat_iff.1 hq with rfl | hold
  · exact hdirectory
  · exact h q hold

theorem Reached.enter {name : String} (h : fs.Reached place)
    (hq : fs.enter place name = .ok q) : fs.Reached q := by
  obtain ⟨rfl, hname⟩ := enter_eq_ok_iff.1 hq
  by_cases hstays : Path.staysPut name = true
  · rwa [FilePlace.child, if_pos hstays]
  · by_cases hup : name = ".."
    · subst hup
      exact h.parent
    · rw [child_of_bound (Bool.eq_false_iff.2 hstays) hup] at hname ⊢
      exact h.concat ((hname.resolve_left hstays).resolve_left hup).2

/-- **A walk ends at a place that is reached.** -/
theorem Reached.enterAll {names : List String} (h : fs.Reached place)
    (hq : fs.enterAll place names = .ok q) : fs.Reached q := by
  induction names generalizing place with
  | nil =>
      cases hq
      exact h
  | cons name rest ih =>
      obtain ⟨next, hnext, hrest⟩ := enterAll_cons_eq_ok_iff.1 hq
      exact ih (h.enter hnext) hrest

/-- Walks succeed along the same names, and end at the same places, where the same places are
    directories. -/
theorem SameDirectories.enterAll_iff (h : SameDirectories fs fs') {names : List String} :
    fs'.enterAll place names = .ok q ↔ fs.enterAll place names = .ok q := by
  induction names generalizing place with
  | nil => exact Iff.rfl
  | cons name rest ih => simp only [enterAll_cons_eq_ok_iff, enter_eq_ok_iff, h _, ih]

/-! ## Files -/

theorem SameDirectories.resolve_iff (h : SameDirectories fs fs') {destination : Destination} :
    fs'.resolve path = .ok destination ↔ fs.resolve path = .ok destination := by
  unfold resolve
  split
  · exact Iff.rfl
  split
  · exact Iff.rfl
  split
  · exact Iff.rfl
  dsimp only
  cases (splitPath path).1.getLast? with
  | none => exact Iff.rfl
  | some last =>
      dsimp only
      cases hwalk : fs.enterAll (startOf path) (splitPath path).1.dropLast with
      | ok start =>
          rw [h.enterAll_iff.2 hwalk]
          simp only [h _]
      | error err =>
          cases hwalk' : fs'.enterAll (startOf path) (splitPath path).1.dropLast with
          | ok start =>
              rw [h.enterAll_iff.1 hwalk'] at hwalk
              cases hwalk
          | error err => exact ⟨nofun, nofun⟩

/-- The place of a file that a path leads to is below directories only. -/
theorem rooted_of_resolve {slash : Bool} (h : fs.resolve path = .ok (.place place slash)) :
    fs.Rooted place := by
  unfold resolve at h
  split at h
  · cases h
  split at h
  · cases h
  split at h
  · cases h
  dsimp only at h
  split at h
  · cases h
  · next last hlast =>
    split at h
    · cases h
    · next start hstart =>
      split at h
      · cases h
      · next hfile =>
        split at h
        · cases h
        · cases h
          have hreached : fs.Reached start := (reached_startOf fs path).enterAll hstart
          simp only [Bool.or_eq_true, beq_iff_eq, not_or] at hfile
          have hmoves : Path.staysPut last = false := by
            refine Bool.eq_false_iff.2 ?_
            intro hstays
            refine hfile.2 ?_
            rw [FilePlace.child, if_pos hstays]
            exact hreached start (List.prefix_refl start)
          rw [child_of_bound hmoves hfile.1.2]
          intro q habove hne
          rcases List.prefix_concat_iff.1 habove with rfl | habove
          · exact absurd rfl hne
          · exact hreached q habove

theorem create?_eq_ok_iff :
    fs.create? path = .ok place ↔ fs.resolve path = .ok (.place place false) := by
  unfold create?
  cases fs.resolve path with
  | error err => exact ⟨nofun, nofun⟩
  | ok destination =>
      cases destination with
      | directory => exact ⟨nofun, nofun⟩
      | place place slash => cases slash <;> simp

/-- **A path names the same file** where the same places are directories. -/
theorem SameDirectories.create?_iff (h : SameDirectories fs fs') :
    fs'.create? path = .ok place ↔ fs.create? path = .ok place := by
  rw [create?_eq_ok_iff, create?_eq_ok_iff, h.resolve_iff]

theorem rooted_of_create? (h : fs.create? path = .ok place) : fs.Rooted place :=
  rooted_of_resolve (create?_eq_ok_iff.1 h)

/-- What is read at a path is the content of the file that it names. -/
theorem read?_of_create? (h : fs.create? path = .ok place) :
    fs.read? path = .ok content ↔ fs.content? place = some content := by
  rw [read?, create?_eq_ok_iff.1 h]
  dsimp only
  cases fs.content? place with
  | none => exact ⟨nofun, nofun⟩
  | some old => simp

end Relief.Files
