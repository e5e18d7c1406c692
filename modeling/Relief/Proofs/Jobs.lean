import Relief.Proofs.Partition
import Relief.Proofs.Waiting

set_option autoImplicit false

/-! # Jobs: what a run has rendered when it ends

A job looks at its flag before each tile, so the outcome of a run is settled by the number of tiles
after which the flag is first found set. What the shared state is after `k` tiles does not depend on
the job: it is what the observers make of the first `k` tiles of the frame, one after the other
(`showAll`, `firstTiles`). Until the flag is found, the ticks of a job are at these states
(`ticks_eq_of_unseen`), and from there the account of a run is read off (`run_accounts`). -/

namespace Relief

namespace TileRenderer

variable {σ : Type} {r : TileRenderer σ} {field : Field Float32}

/-! ## The tiles of a frame -/

/-- A renderer in a frame of which `i` tiles are done. -/
def opened (r : TileRenderer σ) (i : Nat) : TileRenderer σ :=
  { r with frame := some (Frame.after r.size i) }

/-- The `i`-th tile of a frame. -/
def tileAt (r : TileRenderer σ) (field : Field Float32) (i : Nat) : Tile :=
  render field r.sampling r.size (Frame.after r.size i).nextTile

/-- The first `k` tiles of a frame. -/
def firstTiles (r : TileRenderer σ) (field : Field Float32) (k : Nat) : List Tile :=
  (List.range k).map (r.tileAt field)

/-- Shows tiles to every observer, one after the other. -/
def showAll (observers : List (TileObserver σ)) (tiles : List Tile) (s : σ) : σ :=
  tiles.foldl (fun s t => notify observers t s) s

theorem firstTiles_succ (r : TileRenderer σ) (field : Field Float32) (k : Nat) :
    r.firstTiles field (k + 1) = r.firstTiles field k ++ [r.tileAt field k] := by
  rw [firstTiles, List.range_succ, List.map_append]
  rfl

theorem length_firstTiles (r : TileRenderer σ) (field : Field Float32) (k : Nat) :
    (r.firstTiles field k).length = k := by
  rw [firstTiles, List.length_map, List.length_range]

/-- A tile of a frame lies where its cell lies. -/
theorem rect_tileAt (r : TileRenderer σ) (field : Field Float32) (i : Nat) :
    (r.tileAt field i).rect = Frame.cell r.size i :=
  Session.rect_render field r.sampling r.size (Frame.after r.size i).nextTile

theorem tileAt_inside (field : Field Float32) {i : Nat} (hi : i < Frame.cellCount r.size) :
    (r.tileAt field i).offsetX + (r.tileAt field i).width ≤ r.size.width ∧
      (r.tileAt field i).offsetY + (r.tileAt field i).height ≤ r.size.height :=
  Frame.cell_inside hi

theorem showAll_concat (observers : List (TileObserver σ)) (tiles : List Tile) (t : Tile) (s : σ) :
    showAll observers (tiles ++ [t]) s = notify observers t (showAll observers tiles s) := by
  rw [showAll, List.foldl_append]
  rfl

/-- What the observers keep in one part of the shared state can be told from the tiles. -/
theorem view_showAll {τ : Type} {view : σ → τ} {see : Tile → τ → τ}
    {observers : List (TileObserver σ)} (hsees : Session.Sees view see observers)
    (tiles : List Tile) (s : σ) :
    view (showAll observers tiles s) = tiles.foldl (fun a t => see t a) (view s) := by
  induction tiles generalizing s with
  | nil => rfl
  | cons t rest ih =>
      rw [List.foldl_cons, ← hsees t s]
      exact ih (notify observers t s)

theorem begin_of_idle (hidle : r.frame = none) : r.begin = .ok (r.opened 0) :=
  begin_eq_ok_iff.2 ⟨hidle, rfl⟩

/-- Inside of a frame the next tile is rendered as long as there is one. -/
theorem renderNext_opened (hfield : r.height = some field) {i : Nat}
    (hi : i < Frame.cellCount r.size) :
    (r.opened i).renderNext = .ok (r.tileAt field i, r.opened (i + 1)) :=
  renderNext_eq_ok_iff.2
    ⟨Frame.after r.size i, field, rfl, hfield, Nat.sub_ne_zero_of_lt hi, rfl, rfl⟩

/-- A poll renders it and shows it to the observers. -/
theorem poll_opened (hfield : r.height = some field) {i : Nat} (hi : i < Frame.cellCount r.size)
    (s : σ) :
    (r.opened i).poll s = .ok (r.opened (i + 1), notify r.observers (r.tileAt field i) s) :=
  poll_eq_ok_iff.2 ⟨r.tileAt field i, renderNext_opened hfield hi, rfl⟩

theorem poll_opened_of_no_field (hfield : r.height = none) (i : Nat) (s : σ) :
    (r.opened i).poll s = .error (.missingExpr .height) := by
  have hnext : (r.opened i).renderNext = .error (.missingExpr .height) := by
    simp only [renderNext, opened, hfield]
  simp only [poll, hnext]

end TileRenderer

namespace RenderJob

variable {σ : Type} {job : RenderJob} {r : TileRenderer σ} {field : Field Float32}
  {cancelled : σ → Bool} {s : σ} {k : Nat}

open TileRenderer (showAll)

/-! ## Up to the flag -/

/-- A run of an idle renderer ends where its ticks end, and leaves the renderer as it was. -/
theorem run_of_idle (htick : 0 < job.tick) (hidle : r.frame = none) {result} {i : Nat} {s' : σ}
    (hticks : ticks cancelled (Frame.cellCount r.size) (Frame.cellCount r.size) 0 (r.opened 0) s
      = ⟨result, r.opened i, s'⟩) : job.run cancelled r s = ⟨result, r, s'⟩ := by
  have hrun : job.run cancelled r s
      = close (ticks cancelled (Frame.cellCount r.size) (Frame.cellCount r.size) 0
          (r.opened 0) s) := by
    simp only [run, TileRenderer.begin_of_idle hidle, if_neg (Nat.ne_of_gt htick)]
    rfl
  rw [hrun, hticks, close_of_frame hidle ⟨_, rfl⟩]

/-- As long as the flag has not been found set, a tile is rendered with every tick. -/
theorem ticks_eq_of_unseen (hfield : r.height = some field) (hk : k ≤ Frame.cellCount r.size)
    (hunseen : ∀ j < k, cancelled (showAll r.observers (r.firstTiles field j) s) = false) :
    ticks cancelled (Frame.cellCount r.size) (Frame.cellCount r.size) 0 (r.opened 0) s
      = ticks cancelled (Frame.cellCount r.size) (Frame.cellCount r.size - k) k (r.opened k)
          (showAll r.observers (r.firstTiles field k) s) := by
  induction k with
  | zero => rfl
  | succ k ih =>
      have hpoll := TileRenderer.poll_opened hfield hk
        (showAll r.observers (r.firstTiles field k) s)
      have hleft : Frame.cellCount r.size - k = Frame.cellCount r.size - (k + 1) + 1 := by omega
      rw [ih (by omega) fun j hj => hunseen j (by omega), hleft,
        ticks_succ_of_ok (hunseen k (by omega)) hpoll, TileRenderer.firstTiles_succ,
        TileRenderer.showAll_concat]

/-- A run that finds its flag set after `k` tiles has rendered these. -/
theorem run_of_seen (htick : 0 < job.tick) (hidle : r.frame = none)
    (hfield : r.height = some field) (hk : k ≤ Frame.cellCount r.size)
    (hseen : cancelled (showAll r.observers (r.firstTiles field k) s) = true)
    (hunseen : ∀ j < k, cancelled (showAll r.observers (r.firstTiles field j) s) = false) :
    job.run cancelled r s
      = ⟨.error (.error (.cancelled k (Frame.cellCount r.size))), r,
          showAll r.observers (r.firstTiles field k) s⟩ := by
  refine run_of_idle htick hidle (i := k) ?_
  rw [ticks_eq_of_unseen hfield hk hunseen, ticks_of_cancelled hseen]

/-- A run that never finds its flag set has rendered all tiles. -/
theorem run_of_unseen (htick : 0 < job.tick) (hidle : r.frame = none)
    (hfield : r.height = some field)
    (hunseen : ∀ j ≤ Frame.cellCount r.size,
      cancelled (showAll r.observers (r.firstTiles field j) s) = false) :
    job.run cancelled r s
      = ⟨.ok ⟨Frame.cellCount r.size, Frame.cellCount r.size⟩, r,
          showAll r.observers (r.firstTiles field (Frame.cellCount r.size)) s⟩ := by
  refine run_of_idle htick hidle (i := Frame.cellCount r.size) ?_
  rw [ticks_eq_of_unseen hfield (Nat.le_refl _) fun j hj => hunseen j (Nat.le_of_lt hj),
    Nat.sub_self, ticks_zero (hunseen _ (Nat.le_refl _))]

/-- A job that is cancelled already renders nothing. -/
theorem run_of_cancelled (htick : 0 < job.tick) (hidle : r.frame = none)
    (hflag : cancelled s = true) :
    job.run cancelled r s
      = ⟨.error (.error (.cancelled 0 (Frame.cellCount r.size))), r, s⟩ :=
  run_of_idle htick hidle (i := 0) (ticks_of_cancelled hflag)

/-- Without a field the first tick fails, if there is one. -/
theorem run_of_no_field (htick : 0 < job.tick) (hidle : r.frame = none) (hfield : r.height = none)
    (hflag : cancelled s = false) :
    job.run cancelled r s
      = if Frame.cellCount r.size = 0 then ⟨.ok ⟨0, 0⟩, r, s⟩
        else ⟨.error (.error (.render (.missingExpr .height))), r, s⟩ := by
  by_cases hempty : Frame.cellCount r.size = 0
  · rw [if_pos hempty]
    refine run_of_idle htick hidle (i := 0) ?_
    rw [hempty, ticks_zero hflag]
  · obtain ⟨n, hn⟩ := Nat.exists_eq_succ_of_ne_zero hempty
    rw [if_neg hempty]
    refine run_of_idle htick hidle (i := 0) ?_
    rw [hn, ticks_succ_of_error hflag (TileRenderer.poll_opened_of_no_field hfield 0 s)]

/-! ## The account -/

/-- **What a run has rendered when it ends.** A job looks at its flag before every tile, so if it
    finds it set after `k` tiles, its observers have been shown the first `k` tiles of the frame and
    nothing else, and the run is cancelled; this is so also where no tile is left. If the flag is
    never set, they have been shown all tiles. Without a height field there is nothing to show. The
    flag is still set after a cancelled run, and a job whose flag is set renders nothing. Whether
    the handle of the job is still held makes no difference, and neither does the order in which the
    loop is woken. -/
theorem run_accounts {job : RenderJob} (htick : 0 < job.tick) {r : TileRenderer σ}
    (hidle : r.frame = none) (cancelled : σ → Bool) (s : σ) :
    let columns := r.size.width ⌈/⌉ 256
    let total := columns * (r.size.height ⌈/⌉ 256)
    let ended := job.run cancelled r s
    Frame.cellCount r.size = total ∧
    (∀ field, r.height = some field →
      let seen (k : Nat) := showAll r.observers (r.firstTiles field k) s
      (∀ i, (r.tileAt field i).offsetX = 256 * (i % columns) ∧
        (r.tileAt field i).offsetY = 256 * (i / columns)) ∧
      (∀ written : σ → List Tile, Session.Sees written (fun t ts => ts ++ [t]) r.observers →
        ∀ k, written (seen k) = written s ++ r.firstTiles field k) ∧
      (∀ k, k ≤ total → cancelled (seen k) = true → (∀ j < k, cancelled (seen j) = false) →
        ended = ⟨.error (.error (.cancelled k total)), r, seen k⟩) ∧
      ((∀ j ≤ total, cancelled (seen j) = false) →
        ended = ⟨.ok ⟨total, total⟩, r, seen total⟩)) ∧
    (r.height = none →
      (cancelled s = true → ended = ⟨.error (.error (.cancelled 0 total)), r, s⟩) ∧
      (cancelled s = false → 0 < total →
        ended = ⟨.error (.error (.render (.missingExpr .height))), r, s⟩) ∧
      (cancelled s = false → total = 0 → ended = ⟨.ok ⟨0, 0⟩, r, s⟩)) ∧
    (∀ k n, ended.result = .error (.error (.cancelled k n)) → cancelled ended.state = true) ∧
    (∀ (later : TileRenderer σ) (s' : σ), later.frame = none → cancelled s' = true →
      job.run cancelled later s'
        = ⟨.error (.error (.cancelled 0 (Frame.cellCount later.size))), later, s'⟩) ∧
    ∀ dropped e, job.Runs ⟨cancelled, dropped⟩ Eq r s e ↔ e = ended := by
  intro columns total ended
  have htotal : Frame.cellCount r.size = total := Frame.cellCount_eq_ceilDiv r.size
  refine ⟨htotal, fun field hfield => ?_, fun hfield => ?_, fun k n hresult => ?_,
    fun later s' hlater hflag => run_of_cancelled htick hlater hflag,
    fun dropped e => runs_iff_eq_run⟩
  · intro seen
    refine ⟨fun i => Frame.offset_cell r.size i, fun written hsees k => ?_,
      fun k hk hseen hunseen => ?_, fun hunseen => ?_⟩
    · rw [TileRenderer.view_showAll hsees, List.foldl_append_eq_append, ← List.flatMap_def,
        List.flatMap_singleton']
    · rw [← htotal] at hk ⊢
      exact run_of_seen htick hidle hfield hk hseen hunseen
    · rw [← htotal] at hunseen ⊢
      exact run_of_unseen htick hidle hfield hunseen
  · rw [← htotal]
    refine ⟨run_of_cancelled htick hidle, fun hflag hpos => ?_, fun hflag hempty => ?_⟩
    · exact (run_of_no_field htick hidle hfield hflag).trans (if_neg (Nat.ne_of_gt hpos))
    · exact (run_of_no_field htick hidle hfield hflag).trans (if_pos hempty)
  · have hrun : job.Runs ⟨cancelled, fun _ => false⟩ Eq r s ended :=
      runs_run (fun _ => rfl) job r s
    exact hrun.cancelled_state hresult

/-- Four tiles and an observer that counts them: a cancellation on the last one is still one, and
    none comes where the count does not reach the limit. -/
theorem run_accounts_last_tile :
    let r : TileRenderer Nat :=
      ⟨⟨300, 300⟩, .raster, [fun _ n => n + 1], none, some fun c => c.along .u⟩
    let reaches (limit n : Nat) : Bool := decide (limit ≤ n)
    0 < (RenderJob.mk 1).tick ∧ r.frame = none ∧
    RenderJob.run ⟨1⟩ (reaches 4) r 0 = ⟨.error (.error (.cancelled 4 4)), r, 4⟩ ∧
    RenderJob.run ⟨1⟩ (reaches 5) r 0 = ⟨.ok ⟨4, 4⟩, r, 4⟩ := by
  intro r reaches
  have htick : 0 < (RenderJob.mk 1).tick := by decide
  have htotal : (r.size.width ⌈/⌉ 256) * (r.size.height ⌈/⌉ 256) = 4 := by
    rw [← Frame.cellCount_eq_ceilDiv]
    decide
  -- The shared state counts the tiles.
  have hcount : (fun k => showAll r.observers (r.firstTiles (fun c => c.along .u) k) 0) = id := by
    funext k
    induction k with
    | zero => rfl
    | succ k ih =>
        rw [TileRenderer.firstTiles_succ, TileRenderer.showAll_concat, ih]
        rfl
  refine ⟨htick, rfl, ?_, ?_⟩
  · obtain ⟨-, hfield, -⟩ := run_accounts htick (r := r) rfl (reaches 4) 0
    obtain ⟨-, -, hcancelled, -⟩ := hfield _ rfl
    rw [hcount, htotal] at hcancelled
    exact hcancelled 4 (Nat.le_refl 4) rfl fun j hj => decide_eq_false (Nat.not_le_of_lt hj)
  · obtain ⟨-, hfield, -⟩ := run_accounts htick (r := r) rfl (reaches 5) 0
    obtain ⟨-, -, -, hfinished⟩ := hfield _ rfl
    rw [hcount, htotal] at hfinished
    exact hfinished fun j hj => decide_eq_false (Nat.not_le_of_lt (Nat.lt_succ_of_le hj))

end RenderJob

end Relief
