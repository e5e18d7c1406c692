import Relief.Proofs.Jobs

set_option autoImplicit false

/-! # Deliveries: what a run has shown when it ends

Other tasks may cancel a job at any moment between two tiles, so how many tiles a run delivers is not
settled when it begins. What it delivers is: the tiles of its frame from the first one on, as many as
its result says. `Loop.Shown` is the invariant of the loop that says so for one part of the shared
state, one that the observers keep and that other tasks leave alone; every end of a loop and of a run
is read off from it (`Ends.shown`, `Runs.shown`). -/

namespace Relief

namespace TileRenderer

variable {σ : Type} {r : TileRenderer σ}

/-- The first `k` tiles that a renderer can deliver of a frame, none without a field. -/
def drawable (r : TileRenderer σ) (k : Nat) : List Tile :=
  r.height.elim [] fun field => r.firstTiles field k

theorem drawable_of_field {field : Field Float32} (hfield : r.height = some field) (k : Nat) :
    r.drawable k = r.firstTiles field k := by
  unfold drawable
  rw [hfield]
  rfl

theorem drawable_zero (r : TileRenderer σ) : r.drawable 0 = [] := by
  unfold drawable
  cases r.height <;> rfl

/-- A poll that succeeds inside of a frame shows its next tile. -/
theorem poll_opened_eq_ok {i : Nat} {s s' : σ} {r' : TileRenderer σ}
    (hpoll : (r.opened i).poll s = .ok (r', s')) :
    i < Frame.cellCount r.size ∧ r' = r.opened (i + 1) ∧
      ∃ t, r.drawable (i + 1) = r.drawable i ++ [t] ∧ s' = notify r.observers t s := by
  obtain ⟨t, hnext, rfl⟩ := poll_eq_ok_iff.1 hpoll
  obtain ⟨f, field, hf, hfield, hleft, rfl, rfl⟩ := renderNext_eq_ok_iff.1 hnext
  cases hf
  refine ⟨Nat.lt_of_sub_ne_zero hleft, rfl, r.tileAt field i, ?_, rfl⟩
  have hheight : r.height = some field := hfield
  rw [drawable_of_field hheight, drawable_of_field hheight, firstTiles_succ]

end TileRenderer

namespace RenderJob

variable {σ τ : Type} {h : Handle σ} {meanwhile : σ → σ → Prop} {total : Nat}
  {r : TileRenderer σ} {view : σ → τ} {see : Tile → τ → τ} {a : τ}

/-- A loop that has shown the first tiles of its frame: it is as far in the frame as the tiles that
    it has counted, and these are what one part of the shared state has seen. -/
structure Loop.Shown (r : TileRenderer σ) (view : σ → τ) (see : Tile → τ → τ) (a : τ)
    (x : Loop σ) : Prop where
  renderer : x.renderer = r.opened x.rendered
  bounded : x.rendered ≤ Frame.cellCount r.size
  counted : (r.drawable x.rendered).length = x.rendered
  state : view x.state = (r.drawable x.rendered).foldl (fun a t => see t a) a

/-- The number of tiles that a result accounts for, if it accounts for any. -/
def accounted? : Except JobFailure RenderSummary → Option Nat
  | .ok summary => some summary.rendered
  | .error (.error (.cancelled rendered _)) => some rendered
  | .error _ => none

/-- One more tile, and what other tasks do before it. -/
theorem Loop.Shown.poll {x : Loop σ} (hx : x.Shown r view see a)
    (hsees : Session.Sees view see r.observers)
    (hkeeps : ∀ s s', meanwhile s s' → view s' = view s) {s s' : σ}
    (hwait : meanwhile x.state s) {r' : TileRenderer σ}
    (hpoll : x.renderer.poll s = .ok (r', s')) :
    Loop.Shown r view see a ⟨r', s', x.rendered + 1, x.listening⟩ := by
  rw [hx.renderer] at hpoll
  obtain ⟨hlt, rfl, t, hdrawable, rfl⟩ := TileRenderer.poll_opened_eq_ok hpoll
  refine ⟨rfl, hlt, ?_, ?_⟩
  · rw [hdrawable, List.length_append, hx.counted]
    rfl
  · show view _ = (r.drawable (x.rendered + 1)).foldl (fun a t => see t a) a
    rw [hsees, hkeeps _ _ hwait, hx.state, hdrawable, List.foldl_append]
    rfl

/-- Waiting changes nothing of what has been shown. -/
theorem Loop.Shown.wait {x : Loop σ} (hx : x.Shown r view see a)
    (hkeeps : ∀ s s', meanwhile s s' → view s' = view s) {s : σ} (hwait : meanwhile x.state s)
    (listening : Bool) : Loop.Shown r view see a ⟨x.renderer, s, x.rendered, listening⟩ :=
  ⟨hx.renderer, hx.bounded, hx.counted, (hkeeps _ _ hwait).trans hx.state⟩

/-- A loop that is done with its frame has counted all tiles. -/
theorem Loop.Shown.rendered_of_isDone {x : Loop σ} (hx : x.Shown r view see a)
    (hdone : x.renderer.isDone = true) : x.rendered = Frame.cellCount r.size := by
  rw [hx.renderer, TileRenderer.isDone_iff] at hdone
  exact Nat.le_antisymm hx.bounded (Nat.le_of_sub_eq_zero hdone)

/-- **A loop ends having shown the tiles that its result accounts for**, and all of them if it ends
    well. -/
theorem Ends.shown {x : Loop σ} {e : Ended σ} (hend : Ends h meanwhile total x e)
    (hsees : Session.Sees view see r.observers)
    (hkeeps : ∀ s s', meanwhile s s' → view s' = view s) (hx : x.Shown r view see a) :
    ∃ k, k ≤ Frame.cellCount r.size ∧ (r.drawable k).length = k ∧
      view e.state = (r.drawable k).foldl (fun a t => see t a) a ∧
      (∀ n, accounted? e.result = some n → n = k) ∧
      ∀ summary, e.result = .ok summary → k = Frame.cellCount r.size := by
  induction hend with
  | @cancelled x _ =>
      refine ⟨x.rendered, hx.bounded, hx.counted, hx.state, ?_, nofun⟩
      intro n hn
      exact (Option.some.inj hn).symm
  | @done x _ hdone =>
      refine ⟨x.rendered, hx.bounded, hx.counted, hx.state, ?_,
        fun _ _ => hx.rendered_of_isDone hdone⟩
      intro n hn
      exact (Option.some.inj hn).symm
  | word _ _ hwait _ _ ih => exact ih (hx.wait hkeeps hwait _)
  | silence _ _ hwait _ _ _ ih => exact ih (hx.wait hkeeps hwait _)
  | tick _ hwait hpoll _ ih => exact ih (hx.poll hsees hkeeps hwait hpoll)
  | @failed x s err _ hwait _ =>
      exact ⟨x.rendered, hx.bounded, hx.counted, (hkeeps _ _ hwait).trans hx.state, nofun, nofun⟩

/-- A loop that begins has shown nothing. -/
theorem Loop.shown_start (r : TileRenderer σ) (s : σ) :
    Loop.Shown r view see (view s) ⟨r.opened 0, s, 0, true⟩ := by
  refine ⟨rfl, Nat.zero_le _, ?_, ?_⟩ <;> rw [TileRenderer.drawable_zero] <;> rfl

/-- A run that accounts for tiles has begun a frame of its own and gone through a loop over it. -/
theorem Runs.exists_ends {job : RenderJob} {s : σ} {e : Ended σ}
    (hrun : job.Runs h meanwhile r s e) {k : Nat} (hresult : accounted? e.result = some k) :
    r.frame = none ∧ ∃ ended, Ends h meanwhile (r.opened 0).remaining ⟨r.opened 0, s, 0, true⟩ ended ∧
      e = { ended with renderer := r } := by
  cases hrun with
  | refused _ => cases hresult
  | noPeriod _ _ => cases hresult
  | @looped _ ended hbegin _ hend =>
      obtain ⟨hidle, rfl⟩ := TileRenderer.begin_eq_ok_iff.1 hbegin
      exact ⟨hidle, ended, hend, close_of_frame hidle (hend.exists_frame ⟨_, rfl⟩)⟩

/-- **A run ends having shown the tiles that its result accounts for**, whatever other tasks do in
    the meantime, and a run that accounts for tiles has begun a frame of its own. -/
theorem Runs.shown {job : RenderJob} {s : σ} {e : Ended σ} (hrun : job.Runs h meanwhile r s e)
    (hsees : Session.Sees view see r.observers)
    (hkeeps : ∀ s s', meanwhile s s' → view s' = view s) {k : Nat}
    (hresult : accounted? e.result = some k) :
    r.frame = none ∧ k ≤ Frame.cellCount r.size ∧ (r.drawable k).length = k ∧
      view e.state = (r.drawable k).foldl (fun a t => see t a) (view s) := by
  obtain ⟨hidle, ended, hend, rfl⟩ := hrun.exists_ends hresult
  obtain ⟨n, hn, hcounted, hstate, haccounted, -⟩ :=
    hend.shown hsees hkeeps (Loop.shown_start r s)
  obtain rfl := haccounted k hresult
  exact ⟨hidle, hn, hcounted, hstate⟩

/-- A run that ends well has shown all tiles. -/
theorem Runs.shown_all {job : RenderJob} {s : σ} {e : Ended σ} (hrun : job.Runs h meanwhile r s e)
    (hsees : Session.Sees view see r.observers)
    (hkeeps : ∀ s s', meanwhile s s' → view s' = view s) {summary : RenderSummary}
    (hresult : e.result = .ok summary) :
    (r.drawable (Frame.cellCount r.size)).length = Frame.cellCount r.size ∧
      view e.state
        = (r.drawable (Frame.cellCount r.size)).foldl (fun a t => see t a) (view s) := by
  have haccounted : accounted? e.result = some summary.rendered := congrArg accounted? hresult
  obtain ⟨-, ended, hend, rfl⟩ := hrun.exists_ends haccounted
  obtain ⟨n, -, hcounted, hstate, -, hall⟩ := hend.shown hsees hkeeps (Loop.shown_start r s)
  obtain rfl := hall summary hresult
  exact ⟨hcounted, hstate⟩

end RenderJob

end Relief
