import Relief.Proofs.Policies
import Relief.Proofs.Tiling

set_option autoImplicit false

/-! # Lifecycles: the states of a tile renderer, and what it refuses in them

A tile renderer goes from idle to a frame and back, and in between its settings may change at any
time. Next to its open frame it only keeps numbers that were computed when the frame was begun, and
the next tile is found by dividing by one of them and by subtracting others. That this is safe is an
invariant of the renderer (`Sound`): the numbers of an open frame fit together (`Frame.Valid`), so
as long as a tile is left there is a column to divide by.

Every request is either followed or refused with a failure (`error?`), and a refused one leaves no
trace (`serve_of_error?`). What a request does to the frame is said once for all requests
(`frame_serve`); which requests are refused where, and what a successful poll does, is put together
for every history of requests in `lifecycle`. -/

namespace Relief

/-! ## Frames -/

namespace Frame

/-- Whether the numbers of a frame fit together. -/
structure Valid (f : Frame) : Prop where
  tilesPerRow : f.tilesPerRow = tilesAlong f.size.width
  tileCount : f.tileCount = f.tilesPerRow * tilesAlong f.size.height
  tileIndex : f.tileIndex ≤ f.tileCount

theorem valid_start (size : Size) : (start size).Valid := ⟨rfl, rfl, Nat.zero_le _⟩

namespace Valid

variable {f : Frame}

/-- A frame with a tile left can go on. -/
theorem advance (hf : f.Valid) (hleft : f.remaining ≠ 0) : f.advance.Valid := by
  refine ⟨hf.tilesPerRow, hf.tileCount, ?_⟩
  simp only [remaining, Frame.advance] at hleft ⊢
  omega

theorem remaining_eq_zero_iff (hf : f.Valid) : f.remaining = 0 ↔ f.tileIndex = f.tileCount := by
  have hbound := hf.tileIndex
  unfold remaining
  omega

/-- The next tile of a frame that has one is a cell of its raster. -/
theorem index_lt_cellCount (hf : f.Valid) (hleft : f.remaining ≠ 0) :
    f.tileIndex < cellCount f.size := by
  have hcount : f.tileCount = cellCount f.size := by
    rw [hf.tileCount, hf.tilesPerRow, cellCount]
  unfold remaining at hleft
  omega

/-- So there is a column to divide by. -/
theorem tilesPerRow_pos (hf : f.Valid) (hleft : f.remaining ≠ 0) : 0 < f.tilesPerRow := by
  rw [hf.tilesPerRow]
  exact Nat.pos_of_lt_mul_right (hf.index_lt_cellCount hleft)

/-- And the tile starts before its end, which is where the raster ends or before. -/
theorem next_le (hf : f.Valid) (hleft : f.remaining ≠ 0) :
    f.nextX ≤ min (f.nextX + Tile.edge) f.size.width ∧
      f.nextY ≤ min (f.nextY + Tile.edge) f.size.height := by
  have hindex := hf.index_lt_cellCount hleft
  have hright := offset_add_cellLength_le (column_lt hindex)
  have hbottom := offset_add_cellLength_le (row_lt hindex)
  unfold nextX nextY
  rw [hf.tilesPerRow]
  constructor <;> omega

end Valid

end Frame

/-! ## Requests -/

/-- The observer that a request registers. -/
def Request.observer? {σ : Type} : Request σ → Option (TileObserver σ)
  | observe observer => some observer
  | setSize _ | setSampling _ | setHeight _ | begin | poll | finish => none

namespace Session

variable {σ : Type} {x : Session σ} {q : Request σ}

/-- The failure that an operation ends with, if it fails. -/
def failure? {α : Type} : Except RenderError α → Option RenderError
  | .ok _ => none
  | .error err => some err

/-- The failure that a request is answered with, if it is refused. -/
def error? (x : Session σ) : Request σ → Option RenderError
  | .observe _ | .setSize _ | .setSampling _ => none
  | .setHeight e => failure? (x.renderer.setHeight e)
  | .begin => failure? x.renderer.begin
  | .poll => failure? (x.renderer.poll x.state)
  | .finish => failure? x.renderer.finish

/-- The observers that requests register, the first one first. -/
def registered (requests : List (Request σ)) : List (TileObserver σ) :=
  requests.filterMap Request.observer?

theorem set_of_failure {result : Except RenderError (TileRenderer σ)} {err : RenderError}
    (h : failure? result = some err) : x.set result = x := by
  cases result with
  | ok r => cases h
  | error err => rfl

/-- **A refused request leaves no trace**, neither in the renderer nor with its observers. -/
theorem serve_of_error? {err : RenderError} (h : x.error? q = some err) : x.serve q = x := by
  cases q with
  | observe | setSize | setSampling => cases h
  | setHeight e => exact set_of_failure h
  | begin => exact set_of_failure h
  | finish => exact set_of_failure h
  | poll =>
      cases hnext : x.renderer.renderNext with
      | error err => exact pollOnce_of_error hnext
      | ok found =>
          simp only [error?, TileRenderer.poll, hnext, failure?, reduceCtorEq] at h

/-- A poll that succeeds moves the frame on and shows the tile to the observers. -/
theorem serve_poll_of_left {f : Frame} (hf : x.renderer.frame = some f) {field : Field Float32}
    (hfield : x.renderer.height = some field) (hleft : f.remaining ≠ 0) :
    let t := TileRenderer.render field x.renderer.sampling f.size f.nextTile
    x.error? .poll = none ∧
      x.serve .poll = ⟨{ x.renderer with frame := some f.advance },
        TileRenderer.notify x.renderer.observers t x.state, x.delivered ++ [t]⟩ := by
  intro t
  have hnext : x.renderer.renderNext = .ok (t, { x.renderer with frame := some f.advance }) :=
    TileRenderer.renderNext_eq_ok_iff.2 ⟨f, field, hf, hfield, hleft, rfl, rfl⟩
  constructor
  · simp only [error?, TileRenderer.poll, hnext, failure?]
  · rw [serve_poll, pollOnce_of_ok hnext]

/-- What a request makes of the frame: it stays, or is opened, moved on or closed by the one kind
    of request that does this. -/
theorem frame_serve (x : Session σ) (q : Request σ) :
    (x.serve q).renderer.frame = x.renderer.frame ∨
    (q = .begin ∧ x.renderer.frame = none ∧
      (x.serve q).renderer.frame = some (Frame.start x.renderer.size)) ∨
    (q = .poll ∧ ∃ f, x.renderer.frame = some f ∧ f.remaining ≠ 0 ∧
      (x.serve q).renderer.frame = some f.advance) ∨
    (q = .finish ∧ (x.serve q).renderer.frame = none) := by
  cases q with
  | observe | setSize | setSampling => exact Or.inl rfl
  | setHeight e =>
      left
      simp only [serve, TileRenderer.setHeight]
      cases e.compile .float <;> rfl
  | begin =>
      cases hframe : x.renderer.frame with
      | some f =>
          left
          simp only [serve, TileRenderer.begin, hframe, set]
      | none =>
          right; left
          simp only [serve, TileRenderer.begin, hframe, set, true_and]
  | poll =>
      cases hframe : x.renderer.frame with
      | none =>
          left
          simp only [serve, pollOnce, TileRenderer.renderNext, hframe]
      | some f =>
          rcases pollOnce_cases hframe with ⟨field, -, hleft, hrenderer, -⟩ | ⟨-, heq⟩
          · right; right; left
            exact ⟨rfl, f, rfl, hleft, by rw [serve_poll, hrenderer]⟩
          · left
            rw [serve_poll, heq, hframe]
  | finish =>
      cases hframe : x.renderer.frame with
      | none =>
          left
          simp only [serve, TileRenderer.finish, hframe, set]
      | some f =>
          right; right; right
          simp only [serve, TileRenderer.finish, hframe, set, true_and]

/-- Only a request to observe adds an observer. -/
theorem observers_serve (x : Session σ) (q : Request σ) :
    (x.serve q).renderer.observers = x.renderer.observers ++ registered [q] := by
  -- Whatever else a renderer's operations change, they keep the list.
  have hset : ∀ result : Except RenderError (TileRenderer σ),
      (∀ r, result = .ok r → r.observers = x.renderer.observers) →
      (x.set result).renderer.observers = x.renderer.observers ++ [] := by
    intro result hresult
    rw [List.append_nil]
    cases result with
    | ok r => exact hresult r rfl
    | error err => rfl
  cases q with
  | observe observer => rfl
  | setSize | setSampling => exact (List.append_nil _).symm
  | setHeight e =>
      refine hset _ ?_
      intro r hr
      unfold TileRenderer.setHeight at hr
      split at hr <;> cases hr
      rfl
  | begin =>
      refine hset _ ?_
      intro r hr
      obtain ⟨-, rfl⟩ := TileRenderer.begin_eq_ok_iff.1 hr
      rfl
  | finish =>
      refine hset _ ?_
      intro r hr
      unfold TileRenderer.finish at hr
      split at hr <;> cases hr
      rfl
  | poll =>
      rw [serve_poll]
      cases hnext : x.renderer.renderNext with
      | error err =>
          rw [pollOnce_of_error hnext]
          exact (List.append_nil _).symm
      | ok found =>
          obtain ⟨t, r⟩ := found
          obtain ⟨f, field, -, -, -, -, rfl⟩ := TileRenderer.renderNext_eq_ok_iff.1 hnext
          rw [pollOnce_of_ok hnext]
          exact (List.append_nil _).symm

theorem observers_follow (x : Session σ) (requests : List (Request σ)) :
    (x.follow requests).renderer.observers = x.renderer.observers ++ registered requests := by
  induction requests generalizing x with
  | nil => exact (List.append_nil _).symm
  | cons q rest ih =>
      rw [follow_cons, ih, observers_serve, List.append_assoc, registered, registered, registered,
        ← filterMap_cons_eq_append]

/-- Only a poll calls the observers. -/
theorem state_serve_of_ne_poll (x : Session σ) (hq : q ≠ .poll) : (x.serve q).state = x.state := by
  cases q with
  | poll => exact absurd rfl hq
  | observe | setSize | setSampling | setHeight | begin | finish => exact x.state_set _

/-! ## Soundness -/

/-- Whether the numbers of the open frame fit together, if there is one. -/
def Sound (x : Session σ) : Prop := ∀ f, x.renderer.frame = some f → f.Valid

/-- **Every request keeps a renderer sound.** -/
theorem Sound.serve (hx : x.Sound) (q : Request σ) : (x.serve q).Sound := by
  intro f hf
  rcases frame_serve x q with hframe | ⟨-, -, hframe⟩ | ⟨-, g, hg, hleft, hframe⟩ | ⟨-, hframe⟩
  · exact hx f (hframe ▸ hf)
  · rw [hframe] at hf
    cases hf
    exact Frame.valid_start _
  · rw [hframe] at hf
    cases hf
    exact (hx g hg).advance hleft
  · rw [hframe] at hf
    cases hf

theorem sound_follow_new (s : σ) (requests : List (Request σ)) :
    ((start TileRenderer.new s).follow requests).Sound := by
  have hnew : (start TileRenderer.new s).Sound := by
    intro f hf
    cases hf
  exact follow_invariant (Q := fun _ => True) (fun x q hx _ => hx.serve q) hnew fun _ _ => trivial

theorem Sound.isDone_iff (hx : x.Sound) : x.renderer.isDone = true ↔
    ∀ f, x.renderer.frame = some f → f.tileIndex = f.tileCount := by
  rw [TileRenderer.isDone, beq_iff_eq, TileRenderer.remaining]
  cases hframe : x.renderer.frame with
  | none => simp
  | some f => simp [(hx f hframe).remaining_eq_zero_iff]

/-! ## Refusals -/

theorem error?_begin (x : Session σ) : x.error? .begin
    = if x.renderer.frame.isSome then some .frameInProgress else none := by
  unfold error? TileRenderer.begin
  cases x.renderer.frame <;> rfl

theorem error?_finish (x : Session σ) : x.error? .finish
    = if x.renderer.frame.isSome then none else some .noFrame := by
  unfold error? TileRenderer.finish
  cases x.renderer.frame <;> rfl

theorem error?_poll_of_idle (hframe : x.renderer.frame = none) :
    x.error? .poll = some .noFrame := by
  simp only [error?, TileRenderer.poll, TileRenderer.renderNext, hframe, failure?]

theorem error?_poll_of_no_field {f : Frame} (hframe : x.renderer.frame = some f)
    (hfield : x.renderer.height = none) : x.error? .poll = some (.missingExpr .height) := by
  simp only [error?, TileRenderer.poll, TileRenderer.renderNext, hframe, hfield, failure?]

theorem error?_poll_of_complete {f : Frame} (hframe : x.renderer.frame = some f)
    {field : Field Float32} (hfield : x.renderer.height = some field) (hdone : f.remaining = 0) :
    x.error? .poll = some .frameComplete := by
  simp only [error?, TileRenderer.poll, TileRenderer.renderNext, hframe, hfield, if_pos hdone,
    failure?]

/-- There is no field as long as no expression was accepted. -/
theorem height_follow_new_eq_none_iff (s : σ) (requests : List (Request σ)) :
    ((start TileRenderer.new s).follow requests).renderer.height = none ↔
      ∀ e, Request.setHeight e ∈ requests → ∀ field, e.compile .float ≠ .ok field := by
  have hheight : ((start TileRenderer.new s).follow requests).renderer.height
      = Expr.lastAccepted? .float (heights requests) :=
    (height_follow _ requests).trans Option.or_none
  rw [hheight, Expr.lastAccepted?, List.getLast?_eq_none_iff, List.filterMap_eq_nil_iff]
  constructor
  · intro hnone e he field hfield
    have hlower := hnone e (List.mem_filterMap.2 ⟨_, he, rfl⟩)
    rw [Expr.compile_eq_ok_iff.1 hfield] at hlower
    cases hlower
  · intro hnone e he
    obtain ⟨q, hq, hsent⟩ := List.mem_filterMap.1 he
    cases q with
    | setHeight e' =>
        cases hsent
        cases hlower : e.lower .float with
        | none => rfl
        | some field => exact absurd (Expr.compile_eq_ok_iff.2 hlower) (hnone e hq field)
    | observe | setSize | setSampling | begin | poll | finish => cases hsent

/-! ## The lifecycle -/

/-- **A tile renderer is sound in every state that it can get into, and refuses exactly what the
    state forbids.** After any history of requests the numbers of an open frame fit together, so
    that the tiles that are left can be counted and the next one can be placed; a frame is done when
    no tile is left of it, and so is an idle renderer. A frame is begun only where none is open, and
    ended only where one is. A poll needs an open frame first, a field that was accepted at some
    time second, and a tile that is left third. It then moves the frame on by one tile, changes
    nothing else and calls every registered observer once, in the order of their registration. A
    refused request changes nothing and calls nobody, and besides the polls no request calls an
    observer. -/
theorem lifecycle (s : σ) (requests : List (Request σ)) :
    let x := (start TileRenderer.new s).follow requests
    let never := ∀ e, Request.setHeight e ∈ requests → ∀ field, e.compile .float ≠ .ok field
    (∀ f, x.renderer.frame = some f →
      f.tilesPerRow = (f.size.width + 255) / 256 ∧
      f.tileCount = f.tilesPerRow * ((f.size.height + 255) / 256) ∧
      f.tileIndex ≤ f.tileCount) ∧
    (x.renderer.isDone = true ↔ ∀ f, x.renderer.frame = some f → f.tileIndex = f.tileCount) ∧
    x.error? .begin = (if x.renderer.frame.isSome then some .frameInProgress else none) ∧
    x.error? .finish = (if x.renderer.frame.isSome then none else some .noFrame) ∧
    (x.renderer.frame = none → x.error? .poll = some .noFrame) ∧
    (∀ f, x.renderer.frame = some f →
      (never → x.error? .poll = some (.missingExpr .height)) ∧
      (¬ never → f.tileIndex = f.tileCount → x.error? .poll = some .frameComplete) ∧
      (¬ never → f.tileIndex ≠ f.tileCount → x.error? .poll = none ∧
        0 < f.tilesPerRow ∧ f.nextX ≤ min (f.nextX + 256) f.size.width ∧
        f.nextY ≤ min (f.nextY + 256) f.size.height ∧
        ∃ field, x.renderer.height = some field ∧
          let t := TileRenderer.render field x.renderer.sampling f.size f.nextTile
          x.serve .poll = ⟨{ x.renderer with frame := some { f with tileIndex := f.tileIndex + 1 } },
            (registered requests).foldl (fun s observer => observer t s) x.state,
            x.delivered ++ [t]⟩)) ∧
    (∀ q err, x.error? q = some err → x.serve q = x) ∧
    ∀ q, q ≠ .poll → (x.serve q).state = x.state := by
  intro x never
  have hx : x.Sound := sound_follow_new s requests
  have hnever : x.renderer.height = none ↔ never := height_follow_new_eq_none_iff s requests
  have hobservers : x.renderer.observers = registered requests := observers_follow _ requests
  refine ⟨?_, hx.isDone_iff, error?_begin x, error?_finish x, error?_poll_of_idle, ?_,
    fun q err => serve_of_error?, fun q => state_serve_of_ne_poll x⟩
  · intro f hf
    have hvalid := hx f hf
    rw [← Frame.tilesAlong_eq_div, ← Frame.tilesAlong_eq_div]
    exact ⟨hvalid.tilesPerRow, hvalid.tileCount, hvalid.tileIndex⟩
  · intro f hf
    have hvalid := hx f hf
    refine ⟨?_, ?_, ?_⟩
    · intro hnone
      exact error?_poll_of_no_field hf (hnever.2 hnone)
    · intro hsome hdone
      obtain ⟨field, hfield⟩ := Option.ne_none_iff_exists'.1 (mt hnever.1 hsome)
      exact error?_poll_of_complete hf hfield (hvalid.remaining_eq_zero_iff.2 hdone)
    · intro hsome hleft
      obtain ⟨field, hfield⟩ := Option.ne_none_iff_exists'.1 (mt hnever.1 hsome)
      have hleft' : f.remaining ≠ 0 := mt hvalid.remaining_eq_zero_iff.1 hleft
      obtain ⟨hok, hserve⟩ := serve_poll_of_left hf hfield hleft'
      obtain ⟨hright, hbottom⟩ := hvalid.next_le hleft'
      rw [hobservers] at hserve
      exact ⟨hok, hvalid.tilesPerRow_pos hleft', hright, hbottom, field, hfield, hserve⟩

end Session

end Relief
