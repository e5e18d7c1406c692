import Relief.Render.Tiled

set_option autoImplicit false

/-! # Sessions: what becomes of a tile renderer in use

A caller of a tile renderer may send its requests in any order. A session is where such a caller
stands: the renderer, the state shared with the observers, and every tile that a successful poll
has delivered. A failing request leaves all three as they are.

What one request does is said once for each kind (`pollOnce_cases`, `serve_of_ne_poll`); facts
about whole sessions are inductions over the requests (`follow_invariant`). That the list of
delivered tiles is what the observers saw, and nothing more, is `observed_eq_foldl`. -/

namespace Relief

/-- What a caller can ask of a tile renderer. -/
inductive Request (σ : Type) where
  | observe (observer : TileObserver σ)
  | setSize (size : Size)
  | setSampling (sampling : Sampling)
  | setHeight (e : Expr)
  | begin
  | poll
  | finish

namespace Request

variable {σ : Type}

/-- Whether a request is a poll. -/
def isPoll : Request σ → Bool
  | poll => true
  | observe _ | setSize _ | setSampling _ | setHeight _ | begin | finish => false

/-- Whether a request lets an open frame go on as it is: it neither closes it nor changes how its
    tiles are drawn. -/
def isSteady : Request σ → Bool
  | observe _ | setSize _ | begin | poll => true
  | setSampling _ | setHeight _ | finish => false

theorem ne_finish_of_isSteady {q : Request σ} (hq : q.isSteady = true) : q ≠ finish := by
  rintro rfl
  cases hq

end Request

/-- A tile renderer in use. -/
structure Session (σ : Type) where
  renderer : TileRenderer σ
  state : σ
  /-- The tiles of the successful polls, the first one first. -/
  delivered : List Tile

namespace Session

variable {σ : Type}

/-- A session that begins now. -/
def start (r : TileRenderer σ) (s : σ) : Session σ := ⟨r, s, []⟩

/-- Goes on with the renderer that an operation leaves, unless it fails. -/
def set (x : Session σ) (result : Except RenderError (TileRenderer σ)) : Session σ :=
  match result with
  | .ok r => { x with renderer := r }
  | .error _ => x

/-- Goes on with what a poll leaves, unless it fails, and notes the tile. -/
def pollOnce (x : Session σ) : Session σ :=
  match x.renderer.renderNext, x.renderer.poll x.state with
  | .ok (tile, _), .ok (r, s) => ⟨r, s, x.delivered ++ [tile]⟩
  | _, _ => x

/-- Follows one request. -/
def serve (x : Session σ) : Request σ → Session σ
  | .observe observer => x.set (.ok (x.renderer.observe observer))
  | .setSize size => x.set (.ok (x.renderer.setSize size))
  | .setSampling sampling => x.set (.ok (x.renderer.setSampling sampling))
  | .setHeight e => x.set (x.renderer.setHeight e)
  | .begin => x.set x.renderer.begin
  | .poll => x.pollOnce
  | .finish => x.set x.renderer.finish

/-- Follows requests in turn. -/
def follow (x : Session σ) (requests : List (Request σ)) : Session σ := requests.foldl serve x

@[simp]
theorem serve_poll (x : Session σ) : x.serve .poll = x.pollOnce := rfl

@[simp]
theorem follow_nil (x : Session σ) : x.follow [] = x := rfl

@[simp]
theorem follow_cons (x : Session σ) (q : Request σ) (rest : List (Request σ)) :
    x.follow (q :: rest) = (x.serve q).follow rest := rfl

/-- An invariant of the single requests is one of a whole session. -/
theorem follow_invariant {P : Session σ → Prop} {Q : Request σ → Prop}
    (hstep : ∀ x q, P x → Q q → P (x.serve q)) {x : Session σ}
    {requests : List (Request σ)} (hx : P x) (hall : ∀ q ∈ requests, Q q) :
    P (x.follow requests) := by
  induction requests generalizing x with
  | nil => exact hx
  | cons q rest ih =>
      rw [follow_cons]
      exact ih (hstep x q hx (hall q (List.mem_cons_self ..)))
        (fun q' hq' => hall q' (List.mem_cons_of_mem _ hq'))

/-! ## Polls -/

theorem pollOnce_of_ok {x : Session σ} {t : Tile} {r : TileRenderer σ}
    (h : x.renderer.renderNext = .ok (t, r)) :
    x.pollOnce = ⟨r, TileRenderer.notify r.observers t x.state, x.delivered ++ [t]⟩ := by
  simp only [pollOnce, TileRenderer.poll, h]

theorem pollOnce_of_error {x : Session σ} {err : RenderError}
    (h : x.renderer.renderNext = .error err) : x.pollOnce = x := by
  simp only [pollOnce, h]

/-- An operation on the renderer delivers nothing. -/
theorem delivered_set (x : Session σ) (result : Except RenderError (TileRenderer σ)) :
    (x.set result).delivered = x.delivered := by
  cases result <;> rfl

/-- And it calls no observer. -/
theorem state_set (x : Session σ) (result : Except RenderError (TileRenderer σ)) :
    (x.set result).state = x.state := by
  cases result <;> rfl

/-- A request delivers nothing, or it is a poll and delivers the next tile of the open frame. -/
theorem delivered_serve (x : Session σ) (q : Request σ) :
    (x.serve q).delivered = x.delivered ∨ ∃ f field, x.renderer.frame = some f ∧
      (x.serve q).delivered = x.delivered ++
        [TileRenderer.render field x.renderer.sampling f.size f.nextTile] := by
  cases q with
  | observe | setSize | setSampling | setHeight | begin | finish => exact .inl (x.delivered_set _)
  | poll =>
      rw [serve_poll]
      cases hnext : x.renderer.renderNext with
      | error err => exact .inl (congrArg delivered (pollOnce_of_error hnext))
      | ok found =>
          obtain ⟨tile, r⟩ := found
          obtain ⟨f, field, hf, -, -, rfl, -⟩ := TileRenderer.renderNext_eq_ok_iff.1 hnext
          exact .inr ⟨f, field, hf, congrArg delivered (pollOnce_of_ok hnext)⟩

/-- A poll of an open frame delivers its next tile, or changes nothing. -/
theorem pollOnce_cases {x : Session σ} {f : Frame} (hf : x.renderer.frame = some f) :
    (∃ field, x.renderer.height = some field ∧ f.remaining ≠ 0 ∧
      x.pollOnce.renderer = { x.renderer with frame := some f.advance } ∧
      x.pollOnce.delivered = x.delivered ++
        [TileRenderer.render field x.renderer.sampling f.size f.nextTile]) ∨
    ((x.renderer.height = none ∨ f.remaining = 0) ∧ x.pollOnce = x) := by
  cases hfield : x.renderer.height with
  | none =>
      have hnext : x.renderer.renderNext = .error (.missingExpr .height) := by
        simp only [TileRenderer.renderNext, hf, hfield]
      exact Or.inr ⟨Or.inl rfl, pollOnce_of_error hnext⟩
  | some field =>
      -- With a field in place it only matters whether a tile is left.
      by_cases hleft : f.remaining = 0
      · have hnext : x.renderer.renderNext = .error .frameComplete := by
          simp only [TileRenderer.renderNext, hf, hfield, if_pos hleft]
        exact Or.inr ⟨Or.inr hleft, pollOnce_of_error hnext⟩
      · have hnext := TileRenderer.renderNext_eq_ok_iff.2 ⟨f, field, hf, hfield, hleft, rfl, rfl⟩
        rw [pollOnce_of_ok hnext]
        exact Or.inl ⟨field, rfl, hleft, rfl, rfl⟩

/-! ## Requests while a frame is open -/

/-- While a frame is open, only a poll moves it on and delivers a tile. -/
theorem serve_of_ne_poll {x : Session σ} {f : Frame} (hf : x.renderer.frame = some f)
    {q : Request σ} (hfinish : q ≠ .finish) (hpoll : q ≠ .poll) :
    (x.serve q).renderer.frame = some f ∧ (x.serve q).delivered = x.delivered := by
  cases q with
  | observe observer => exact ⟨hf, rfl⟩
  | setSize size => exact ⟨hf, rfl⟩
  | setSampling sampling => exact ⟨hf, rfl⟩
  | setHeight e =>
      simp only [serve, TileRenderer.setHeight]
      cases e.compile .float with
      | ok field => exact ⟨hf, rfl⟩
      | error err => exact ⟨hf, rfl⟩
  | begin =>
      simp only [serve, TileRenderer.begin, hf]
      exact ⟨hf, rfl⟩
  | poll => exact absurd rfl hpoll
  | finish => exact absurd rfl hfinish

/-- A steady request leaves the field and the sampling. -/
theorem serve_settings (x : Session σ) {q : Request σ} (hq : q.isSteady = true) :
    (x.serve q).renderer.height = x.renderer.height ∧
      (x.serve q).renderer.sampling = x.renderer.sampling := by
  cases q with
  | observe observer => exact ⟨rfl, rfl⟩
  | setSize size => exact ⟨rfl, rfl⟩
  | begin =>
      simp only [serve, TileRenderer.begin]
      cases x.renderer.frame <;> exact ⟨rfl, rfl⟩
  | poll =>
      rw [serve_poll]
      cases hnext : x.renderer.renderNext with
      | error err =>
          rw [pollOnce_of_error hnext]
          exact ⟨rfl, rfl⟩
      | ok found =>
          obtain ⟨t, r⟩ := found
          obtain ⟨f, field, -, -, -, -, rfl⟩ := TileRenderer.renderNext_eq_ok_iff.1 hnext
          rw [pollOnce_of_ok hnext]
          exact ⟨rfl, rfl⟩
  | setSampling sampling => cases hq
  | setHeight e => cases hq
  | finish => cases hq

/-! ## What observers see -/

section Observed

variable {τ : Type} {view : σ → τ} {see : Tile → τ → τ}

/-- Whether a list of observers, called in turn, does to one part of the shared state what `see`
    does to it. -/
def Sees (view : σ → τ) (see : Tile → τ → τ) (observers : List (TileObserver σ)) : Prop :=
  ∀ t s, view (TileRenderer.notify observers t s) = see t (view s)

theorem Sees.append {observers : List (TileObserver σ)} (h : Sees view see observers)
    {observer : TileObserver σ} (hnew : ∀ t s, view (observer t s) = view s) :
    Sees view see (observers ++ [observer]) := by
  intro t s
  simp only [TileRenderer.notify, List.foldl_append, List.foldl_cons, List.foldl_nil, hnew]
  exact h t s

/-- One request shows the observers the tile that it delivers. -/
theorem observed_serve {x : Session σ} (hsees : Sees view see x.renderer.observers)
    (q : Request σ) (hnew : ∀ observer, q = .observe observer →
      ∀ t s, view (observer t s) = view s) :
    Sees view see (x.serve q).renderer.observers ∧
      ∃ new, (x.serve q).delivered = x.delivered ++ new ∧
        view (x.serve q).state = new.foldl (fun a t => see t a) (view x.state) := by
  -- A renderer that an operation leaves has the observers it had.
  have hset : ∀ result : Except RenderError (TileRenderer σ),
      (∀ r, result = .ok r → Sees view see r.observers) →
      Sees view see (x.set result).renderer.observers ∧
        ∃ new, (x.set result).delivered = x.delivered ++ new ∧
          view (x.set result).state = new.foldl (fun a t => see t a) (view x.state) := by
    intro result hresult
    cases result with
    | ok r => exact ⟨hresult r rfl, [], by simp [set], rfl⟩
    | error err => exact ⟨hsees, [], by simp [set], rfl⟩
  cases q with
  | observe observer =>
      refine hset _ fun r hr => ?_
      cases hr
      exact hsees.append (hnew observer rfl)
  | setSize size => exact hset _ fun r hr => by cases hr; exact hsees
  | setSampling sampling => exact hset _ fun r hr => by cases hr; exact hsees
  | setHeight e =>
      refine hset _ fun r hr => ?_
      unfold TileRenderer.setHeight at hr
      split at hr <;> cases hr
      exact hsees
  | begin =>
      refine hset _ fun r hr => ?_
      unfold TileRenderer.begin at hr
      split at hr <;> cases hr
      exact hsees
  | finish =>
      refine hset _ fun r hr => ?_
      unfold TileRenderer.finish at hr
      split at hr <;> cases hr
      exact hsees
  | poll =>
      rw [serve_poll]
      cases hnext : x.renderer.renderNext with
      | error err =>
          rw [pollOnce_of_error hnext]
          exact ⟨hsees, [], by simp, rfl⟩
      | ok found =>
          obtain ⟨t, r⟩ := found
          obtain ⟨f, field, -, -, -, -, rfl⟩ := TileRenderer.renderNext_eq_ok_iff.1 hnext
          rw [pollOnce_of_ok hnext]
          exact ⟨hsees, [t], rfl, hsees t x.state⟩

/-- **The delivered tiles are the ones that the observers see**, in the same order: a part of the
    shared state that the observers there treat tile by tile, and later ones leave alone, ends as
    if it had been shown the list. -/
theorem observed_eq_foldl {x : Session σ} (hsees : Sees view see x.renderer.observers)
    {requests : List (Request σ)} (hnew : ∀ observer, Request.observe observer ∈ requests →
      ∀ t s, view (observer t s) = view s) :
    ∃ new, (x.follow requests).delivered = x.delivered ++ new ∧
      view (x.follow requests).state = new.foldl (fun a t => see t a) (view x.state) := by
  -- The observers may grow with every request, so that they see what is shown goes along.
  induction requests generalizing x with
  | nil => exact ⟨[], by simp, rfl⟩
  | cons q rest ih =>
      obtain ⟨hsees', new, hdelivered, hview⟩ := observed_serve hsees q fun observer hq =>
        hnew observer (hq ▸ List.mem_cons_self ..)
      obtain ⟨more, hdelivered', hview'⟩ := ih hsees' fun observer hobserver =>
        hnew observer (List.mem_cons_of_mem _ hobserver)
      refine ⟨new ++ more, ?_, ?_⟩
      · rw [follow_cons, hdelivered', hdelivered, List.append_assoc]
      · rw [follow_cons, hview', hview, List.foldl_append]

end Observed

end Session

end Relief
