import Relief.Proofs.Interleavings

set_option autoImplicit false

/-! # Breakdowns: an observer that does not return

The observers of a renderer are functions here, so in every step of a run they return. Where one of
them fails instead, nothing in the loop catches the failure: it goes through the run, past the only
place at which the frame is closed. A tile is counted before it is shown, so the renderer that is
left has it done. What is left of the shared state is up to the observer, and nothing is said of it.

A run that breaks down leaves its frame open, whatever its period, and this can happen at every tile
of the frame. So it takes observers that return for a job to close what it has opened; whoever
catches the failure can still close the frame, and has the renderer of before. -/

namespace Relief

namespace RenderJob

variable {σ : Type} {job : RenderJob} {r r' : TileRenderer (Shared σ)} {field : Field Float32}
  {events : List Event} {t : Tile} {k : Nat}

/-- A run can break down where it is time for a tile that somebody observes. `r` is the renderer
    that it leaves if an observer does not return from `t`. -/
structure Machine.BreaksDown (x : Machine σ) (t : Tile) (r : TileRenderer (Shared σ)) : Prop where
  place : x.place = .ticked
  rendered : x.loop.renderer.renderNext = .ok (t, r)
  observed : r.observers ≠ []

/-- A run that keeps account breaks down on the tile after those that it has delivered. -/
theorem Machine.Sound.breaksDown {x : Machine σ} {shown : List Tile} (hx : x.Sound r field shown)
    (hfield : r.height = some field) (hbreak : x.BreaksDown t r') :
    shown = r.firstTiles field shown.length ∧ shown.length < Frame.cellCount r.size ∧
      t = r.tileAt field shown.length ∧ r' = r.opened (shown.length + 1) := by
  obtain ⟨hplace, hnext, -⟩ := hbreak
  cases hx with
  | ticked hx hless =>
      rw [hx.renderer, TileRenderer.renderNext_opened hfield hless] at hnext
      cases hnext
      rw [hx.length_shown]
      exact ⟨hx.shown, hless, rfl, rfl⟩
  | _ => cases hplace

/-- **A run that breaks down leaves its frame open**, with one tile more done than delivered. No
    frame can be opened then, by another job or otherwise, until that one is closed, which leaves
    the renderer as it was before the run. -/
theorem frame_open_of_breakdown (htick : 0 < job.tick) (hidle : r.frame = none)
    (hfield : r.height = some field) {s : Shared σ} {y : Machine σ}
    (h : Steps job (.start r s) events y) (hbreak : y.BreaksDown t r') :
    (∃ k, k < Frame.cellCount r.size ∧ tiles events = r.firstTiles field k ∧
      t = r.tileAt field k ∧ r' = r.opened (k + 1)) ∧
    r'.begin = .error .frameInProgress ∧
    (∀ (next : RenderJob) (cancelled : Shared σ → Bool) (s' : Shared σ),
      next.run cancelled r' s' = ⟨.error (.error (.render .frameInProgress)), r', s'⟩) ∧
    r'.finish = .ok r := by
  have hsound : y.Sound r field (tiles events) := h.sound (.start s) hidle hfield htick
  obtain ⟨hshown, hless, htile, rfl⟩ := hsound.breaksDown hfield hbreak
  exact ⟨⟨_, hless, hshown, htile, rfl⟩, rfl, fun _ _ _ => rfl,
    TileRenderer.finish_of_idle hidle _⟩

/-! ## It can happen at every tile -/

/-- A loop that has delivered `k` tiles, of which nobody but the observers has heard. -/
def Loop.after (r : TileRenderer (Shared σ)) (field : Field Float32) (s : Shared σ) (k : Nat) :
    Loop (Shared σ) :=
  ⟨r.opened k, TileRenderer.showAll r.observers (r.firstTiles field k) s, k, true⟩

/-- A loop that sees neither a cancellation nor the end of its frame gets to its next tick, and no
    tile is delivered on the way. -/
theorem Steps.exists_ticked {x : Machine σ} {s : Shared σ} {total : Nat}
    (h : Steps job x events ⟨Loop.after r field s k, .top, total⟩)
    (hk : k < Frame.cellCount r.size)
    (hunset : (Loop.after r field s k).state.cancelled = false) :
    ∃ more, tiles more = tiles events ∧
      Steps job x more ⟨Loop.after r field s k, .ticked, total⟩ := by
  have hdone : (Loop.after r field s k).renderer.isDone = false :=
    TileRenderer.isDone_eq_false_iff.2 (Nat.sub_ne_zero_of_lt hk)
  refine ⟨_, ?_, .snoc (.snoc (.snoc h (.look hunset)) (.wait hdone)) .tick⟩
  simp only [tiles_concat, Event.tile?, Option.toList_none, List.append_nil]

/-- Observers that return have seen one tile more. -/
theorem step_tile (hfield : r.height = some field) (hk : k < Frame.cellCount r.size)
    (s : Shared σ) (total : Nat) :
    Step job ⟨Loop.after r field s k, .ticked, total⟩ (.tile (r.tileAt field k))
      ⟨Loop.after r field s (k + 1), .top, total⟩ := by
  have hafter : Loop.after r field s (k + 1) = ⟨r.opened (k + 1),
      TileRenderer.notify r.observers (r.tileAt field k) (Loop.after r field s k).state,
      k + 1, true⟩ := by
    rw [Loop.after, TileRenderer.firstTiles_succ, TileRenderer.showAll_concat]
    rfl
  rw [hafter]
  exact .tile (TileRenderer.renderNext_opened hfield hk) (TileRenderer.poll_opened hfield hk _)

/-- A run that is left alone gets to every tile of its frame, as long as no observer cancels it. -/
theorem exists_steps_ticked (htick : 0 < job.tick) (hidle : r.frame = none)
    (hfield : r.height = some field) (hk : k < Frame.cellCount r.size) {s : Shared σ}
    (hunset : ∀ j ≤ k, (Loop.after r field s j).state.cancelled = false) :
    ∃ events, tiles events = r.firstTiles field k ∧
      Steps job (.start r s) events
        ⟨Loop.after r field s k, .ticked, Frame.cellCount r.size⟩ := by
  induction k with
  | zero =>
      have hopened : Steps job (.start r s) [.quiet]
          ⟨Loop.after r field s 0, .top, Frame.cellCount r.size⟩ :=
        .snoc .nil (.opened (x := ⟨r, s, 0, true⟩) (TileRenderer.begin_of_idle hidle)
          (Nat.ne_of_gt htick))
      exact hopened.exists_ticked hk (hunset 0 (Nat.le_refl 0))
  | succ k ih =>
      obtain ⟨events, htiles, hsteps⟩ :=
        ih (Nat.lt_of_succ_lt hk) fun j hj => hunset j (Nat.le_succ_of_le hj)
      have hnext := hsteps.snoc (step_tile hfield (Nat.lt_of_succ_lt hk) s _)
      obtain ⟨more, hmore, hticked⟩ := hnext.exists_ticked hk (hunset (k + 1) (Nat.le_refl _))
      refine ⟨more, ?_, hticked⟩
      rw [hmore, tiles_concat, htiles, TileRenderer.firstTiles_succ]
      rfl

/-- **A run can break down on every tile** of its frame that somebody observes, unless it has been
    cancelled before it comes to that tile. -/
theorem exists_breakdown (htick : 0 < job.tick) (hidle : r.frame = none)
    (hfield : r.height = some field) (hobserved : r.observers ≠ [])
    (hk : k < Frame.cellCount r.size) {s : Shared σ}
    (hunset : ∀ j ≤ k, (TileRenderer.showAll r.observers (r.firstTiles field j) s).cancelled
      = false) :
    ∃ events y, Steps job (.start r s) events y ∧ tiles events = r.firstTiles field k ∧
      y.BreaksDown (r.tileAt field k) (r.opened (k + 1)) := by
  obtain ⟨events, htiles, hsteps⟩ := exists_steps_ticked htick hidle hfield hk hunset
  exact ⟨events, _, hsteps, htiles, rfl, TileRenderer.renderNext_opened hfield hk, hobserved⟩

end RenderJob

end Relief
