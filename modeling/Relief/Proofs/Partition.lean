import Relief.Proofs.Session
import Relief.Proofs.Tiling

set_option autoImplicit false

/-! # Partitions: a frame delivers every pixel once

Whatever a caller does between the beginning and the end of a frame, the tiles that it is given are
the first cells of the raster that the frame was begun at, in the order of the grid. `InFrame` says
this of a session; every request but the closing one keeps it (`InFrame.serve`). With the geometry
of the cells it follows that a frame partitions its raster (`frame_partition`). -/

namespace Relief.Session

variable {σ : Type} {size : Size} {x : Session σ}

/-! ## Inside a frame -/

/-- A session inside a frame of the given size: the open frame is as far as the delivered tiles,
    and these are the first cells of the raster. -/
structure InFrame (size : Size) (x : Session σ) : Prop where
  frame : x.renderer.frame = some (Frame.after size x.delivered.length)
  bounded : x.delivered.length ≤ Frame.cellCount size
  rects : ∀ i t, x.delivered[i]? = some t → t.rect = Frame.cell size i

/-- Rendering fills a tile where it is. -/
theorem rect_render (field : Field Float32) (sampling : Sampling) (size : Size) (t : Tile) :
    (TileRenderer.render field sampling size t).rect = t.rect := rfl

/-- A list with one tile more has its old tiles, and the new one at the end. -/
theorem getElem?_concat_cases {ts : List Tile} {t u : Tile} {i : Nat}
    (h : (ts ++ [t])[i]? = some u) : ts[i]? = some u ∨ i = ts.length ∧ u = t := by
  rw [List.getElem?_append] at h
  split at h
  · exact Or.inl h
  · rw [List.getElem?_singleton] at h
    split at h
    · exact Or.inr ⟨by omega, (Option.some.inj h).symm⟩
    · cases h

namespace InFrame

/-- A frame that has just been begun has delivered nothing. -/
theorem ofBegin {r opened : TileRenderer σ} (hbegin : r.begin = .ok opened) (s : σ) :
    InFrame r.size (start opened s) := by
  obtain ⟨-, rfl⟩ := TileRenderer.begin_eq_ok_iff.1 hbegin
  exact ⟨rfl, Nat.zero_le _, fun i t ht => by cases ht⟩

theorem remaining (hx : InFrame size x) :
    x.renderer.remaining = Frame.cellCount size - x.delivered.length := by
  rw [TileRenderer.remaining, hx.frame]
  rfl

/-- A poll delivers the next cell, or nothing. -/
theorem pollOnce (hx : InFrame size x) : InFrame size x.pollOnce := by
  rcases pollOnce_cases hx.frame with ⟨field, -, hleft, hrenderer, hdelivered⟩ | ⟨-, heq⟩
  · -- The old tiles keep their numbers, and the new one has the next.
    have hlt : x.delivered.length < Frame.cellCount size := Nat.lt_of_sub_ne_zero hleft
    refine ⟨?_, ?_, ?_⟩
    · rw [hrenderer, hdelivered, List.length_append]
      rfl
    · rw [hdelivered, List.length_append]
      exact hlt
    · intro i t ht
      rw [hdelivered] at ht
      rcases getElem?_concat_cases ht with ht | ⟨rfl, rfl⟩
      · exact hx.rects i t ht
      · exact rect_render _ _ _ _
  · rw [heq]
    exact hx

/-- **A frame stays the frame it was begun as** under every request that does not close it. -/
theorem serve (hx : InFrame size x) {q : Request σ} (hfinish : q ≠ .finish) :
    InFrame size (x.serve q) := by
  by_cases hpoll : q = .poll
  · rw [hpoll]
    exact hx.pollOnce
  · obtain ⟨hframe, hdelivered⟩ := serve_of_ne_poll hx.frame hfinish hpoll
    exact ⟨by rw [hframe, hdelivered], hdelivered ▸ hx.bounded, hdelivered ▸ hx.rects⟩

theorem follow (hx : InFrame size x) {requests : List (Request σ)}
    (hopen : Request.finish ∉ requests) : InFrame size (x.follow requests) :=
  follow_invariant (P := InFrame size) (Q := (· ≠ .finish)) (fun _ _ hy hq => hy.serve hq) hx
    fun _ hq hfinish => hopen (hfinish ▸ hq)

/-- Without polls nothing is delivered. -/
theorem delivered_follow (hx : InFrame size x) {settings : List (Request σ)}
    (hsettings : ∀ q ∈ settings, q ≠ .finish ∧ q ≠ .poll) :
    (x.follow settings).delivered = x.delivered := by
  have h : InFrame size (x.follow settings) ∧ (x.follow settings).delivered = x.delivered := by
    refine follow_invariant (P := fun y => InFrame size y ∧ y.delivered = x.delivered)
      (Q := fun q => q ≠ .finish ∧ q ≠ .poll) (fun y q hy hq => ?_) ⟨hx, rfl⟩ hsettings
    exact ⟨hy.1.serve hq.1, (serve_of_ne_poll hy.1.frame hq.1 hq.2).2.trans hy.2⟩
  exact h.2

/-! ## Progress -/

/-- A frame is done when every cell is delivered. -/
theorem isDone_iff (hx : InFrame size x) :
    x.renderer.isDone = true ↔ x.delivered.length = Frame.cellCount size := by
  have hbounded := hx.bounded
  rw [TileRenderer.isDone, hx.remaining, beq_iff_eq]
  omega

/-- A poll succeeds as long as there is a height field and a cell is left. -/
theorem poll_ok_iff (hx : InFrame size x) :
    (∃ r s, x.renderer.poll x.state = .ok (r, s)) ↔
      x.renderer.height ≠ none ∧ x.delivered.length < Frame.cellCount size := by
  constructor
  · rintro ⟨r, s, h⟩
    obtain ⟨t, hnext, -⟩ := TileRenderer.poll_eq_ok_iff.1 h
    obtain ⟨f, field, hf, hfield, hleft, -, -⟩ := TileRenderer.renderNext_eq_ok_iff.1 hnext
    obtain rfl : f = Frame.after size x.delivered.length := by
      rw [hx.frame] at hf
      exact (Option.some.inj hf).symm
    exact ⟨by rw [hfield]; simp, Nat.lt_of_sub_ne_zero hleft⟩
  · rintro ⟨hheight, hlt⟩
    obtain ⟨field, hfield⟩ := Option.ne_none_iff_exists'.1 hheight
    have hnext := TileRenderer.renderNext_eq_ok_iff.2
      ⟨_, field, hx.frame, hfield, Nat.sub_ne_zero_of_lt hlt, rfl, rfl⟩
    exact ⟨_, _, TileRenderer.poll_eq_ok_iff.2 ⟨_, hnext, rfl⟩⟩

/-- The number of delivered tiles after one steady request. -/
theorem length_serve (hx : InFrame size x) (hheight : x.renderer.height ≠ none) {q : Request σ}
    (hq : q.isSteady = true) :
    (x.serve q).delivered.length
      = min (x.delivered.length + if q.isPoll then 1 else 0) (Frame.cellCount size) := by
  have hbounded := hx.bounded
  by_cases hpoll : q = .poll
  · subst hpoll
    simp only [serve_poll, Request.isPoll, if_true]
    rcases pollOnce_cases hx.frame with ⟨field, -, hleft, -, hdelivered⟩ | ⟨hstuck, heq⟩
    · have hlt : x.delivered.length < Frame.cellCount size := Nat.lt_of_sub_ne_zero hleft
      rw [hdelivered, List.length_append, List.length_singleton]
      omega
    · have hdone : Frame.cellCount size - x.delivered.length = 0 := hstuck.resolve_left hheight
      rw [heq]
      omega
  · have hplain : q.isPoll = false := by
      cases q <;> first | rfl | exact absurd rfl hpoll
    rw [(serve_of_ne_poll hx.frame (Request.ne_finish_of_isSteady hq) hpoll).2, hplain]
    simp only [Bool.false_eq_true, if_false]
    omega

/-- **As many tiles as polls**, until the raster is covered. -/
theorem length_follow (hx : InFrame size x) (hheight : x.renderer.height ≠ none)
    {requests : List (Request σ)} (hsteady : ∀ q ∈ requests, q.isSteady = true) :
    (x.follow requests).delivered.length
      = min (x.delivered.length + requests.countP Request.isPoll) (Frame.cellCount size) := by
  -- Every request caps the count anew; caps at one number are one cap.
  induction requests generalizing x with
  | nil =>
      have hbounded := hx.bounded
      simp only [follow_nil, List.countP_nil]
      omega
  | cons q rest ih =>
      have hq := hsteady q (List.mem_cons_self ..)
      have hheight' : (x.serve q).renderer.height ≠ none := by
        rw [(serve_settings x hq).1]
        exact hheight
      rw [follow_cons, ih (hx.serve (Request.ne_finish_of_isSteady hq)) hheight' fun q' hq' =>
        hsteady q' (List.mem_cons_of_mem _ hq'), hx.length_serve hheight hq, List.countP_cons]
      omega

/-- With a field of its own and as many polls as cells a frame is rendered to its end. -/
theorem length_completed (hx : InFrame size x) {e : Expr} {field : Field Float32}
    (he : e.compile .float = .ok field) :
    (x.follow (.setHeight e :: List.replicate (Frame.cellCount size) .poll)).delivered.length
      = Frame.cellCount size := by
  let polls := List.replicate (Frame.cellCount size) (Request.poll (σ := σ))
  have hfield : (x.serve (.setHeight e)).renderer.height ≠ none := by
    simp [Session.serve, TileRenderer.setHeight, he, set]
  have hsteady : ∀ q ∈ polls, q.isSteady = true := by
    intro q hq
    rw [List.eq_of_mem_replicate hq]
    rfl
  have hcount : polls.countP Request.isPoll = Frame.cellCount size := by
    rw [List.countP_replicate]
    exact if_pos rfl
  rw [follow_cons, (hx.serve (by simp)).length_follow hfield hsteady, hcount]
  omega

/-- A frame can always be rendered to its end. -/
theorem exists_completion (hx : InFrame size x) :
    ∃ more, Request.finish ∉ more ∧ (x.follow more).delivered.length = Frame.cellCount size :=
  -- There may be no field yet, and any will do.
  ⟨_, by simp, hx.length_completed (e := .float Binary32.zero) rfl⟩

/-! ## The partition -/

/-- A delivered tile is a cell of the grid: in its place, not empty, not larger than a full tile,
    and inside the raster. -/
theorem delivered_cell (hx : InFrame size x) {i : Nat} {t : Tile}
    (ht : x.delivered[i]? = some t) :
    (t.offsetX = 256 * (i % (size.width ⌈/⌉ 256)) ∧ t.offsetY = 256 * (i / (size.width ⌈/⌉ 256))) ∧
      (1 ≤ t.width ∧ t.width ≤ 256 ∧ t.offsetX + t.width ≤ size.width) ∧
      (1 ≤ t.height ∧ t.height ≤ 256 ∧ t.offsetY + t.height ≤ size.height) := by
  have hi : i < Frame.cellCount size :=
    Nat.lt_of_lt_of_le (List.getElem?_eq_some_iff.1 ht).1 hx.bounded
  have hrect : t.rect = Frame.cell size i := hx.rects i t ht
  have hcolumns : Frame.tilesAlong size.width = size.width ⌈/⌉ 256 := Frame.tilesAlong_eq_ceilDiv _
  have hplace : t.offsetX = 256 * (i % (size.width ⌈/⌉ 256))
      ∧ t.offsetY = 256 * (i / (size.width ⌈/⌉ 256)) := by
    rw [← hcolumns, Nat.mul_comm, Nat.mul_comm 256]
    exact ⟨congrArg Rect.x hrect, congrArg Rect.y hrect⟩
  have hpos := Frame.cell_pos hi
  have hfull := Frame.cell_le_edge size i
  have hinside := Frame.cell_inside hi
  rw [← hrect] at hpos hfull hinside
  exact ⟨hplace, ⟨hpos.1, hfull.1, hinside.1⟩, ⟨hpos.2, hfull.2, hinside.2⟩⟩

/-- Two delivered tiles share no pixel. -/
theorem delivered_disjoint (hx : InFrame size x) {i j px py : Nat} {t u : Tile}
    (ht : x.delivered[i]? = some t) (hu : x.delivered[j]? = some u)
    (hin : t.rect.Contains px py) (hin' : u.rect.Contains px py) : i = j := by
  have hi : i < Frame.cellCount size :=
    Nat.lt_of_lt_of_le (List.getElem?_eq_some_iff.1 ht).1 hx.bounded
  rw [hx.rects i t ht] at hin
  rw [hx.rects j u hu] at hin'
  exact Frame.cell_disjoint hi hin hin'

/-- When all tiles have been delivered, one of them covers a given pixel. -/
theorem delivered_covers (hx : InFrame size x) (hall : x.delivered.length = Frame.cellCount size)
    {px py : Nat} (hpx : px < size.width) (hpy : py < size.height) :
    ∃ t, x.delivered[Frame.cellOf size px py]? = some t ∧ t.rect.Contains px py := by
  have hlt : Frame.cellOf size px py < x.delivered.length := by
    rw [hall]
    exact Frame.cellOf_lt hpx hpy
  refine ⟨_, List.getElem?_eq_getElem hlt, ?_⟩
  rw [hx.rects _ _ (List.getElem?_eq_getElem hlt)]
  exact (Frame.cell_contains_iff hpx hpy _).2 rfl

/-- Then there is exactly one such tile. -/
theorem existsUnique_delivered (hx : InFrame size x)
    (hall : x.delivered.length = Frame.cellCount size) {px py : Nat} (hpx : px < size.width)
    (hpy : py < size.height) :
    ∃! i : Nat, ∃ t : Tile, x.delivered[i]? = some t ∧ t.rect.Contains px py := by
  obtain ⟨t, ht, hin⟩ := hx.delivered_covers hall hpx hpy
  refine ⟨_, ⟨t, ht, hin⟩, ?_⟩
  rintro j ⟨u, hu, hin'⟩
  exact hx.delivered_disjoint hu ht hin' hin

end InFrame

/-- **A frame partitions its raster, whatever its caller does in the meantime.** From the beginning
    of a frame on, and as long as it is not closed, the tiles of the successful polls are the cells
    of the raster that the frame was begun at, in the order of the grid. No two of them share a
    pixel, there are never more than the grid has cells, a frame can always be completed, and then
    every pixel lies in exactly one tile. What an observer that writes down its tiles has written
    are these tiles. -/
theorem frame_partition {r opened : TileRenderer σ} (hbegin : r.begin = .ok opened) (s : σ)
    {requests : List (Request σ)} (hopen : Request.finish ∉ requests) :
    let columns := r.size.width ⌈/⌉ 256
    let total := columns * (r.size.height ⌈/⌉ 256)
    let x := (start opened s).follow requests
    (∀ (i : Nat) (t : Tile), x.delivered[i]? = some t →
      (t.offsetX = 256 * (i % columns) ∧ t.offsetY = 256 * (i / columns)) ∧
      (1 ≤ t.width ∧ t.width ≤ 256 ∧ t.offsetX + t.width ≤ r.size.width) ∧
      (1 ≤ t.height ∧ t.height ≤ 256 ∧ t.offsetY + t.height ≤ r.size.height)) ∧
    (∀ (i j : Nat) (t u : Tile) (px py : Nat), x.delivered[i]? = some t → x.delivered[j]? = some u →
      t.rect.Contains px py → u.rect.Contains px py → i = j) ∧
    x.delivered.length ≤ total ∧
    x.renderer.remaining = total - x.delivered.length ∧
    ((∃ r' s', x.renderer.poll x.state = .ok (r', s')) ↔
      x.renderer.height ≠ none ∧ x.delivered.length < total) ∧
    (∃ more, Request.finish ∉ more ∧ (x.follow more).delivered.length = total) ∧
    (x.delivered.length = total → ∀ px py, px < r.size.width → py < r.size.height →
      ∃! i : Nat, ∃ t : Tile, x.delivered[i]? = some t ∧ t.rect.Contains px py) ∧
    (∀ written : σ → List Tile,
      Sees written (fun t tiles => tiles ++ [t]) opened.observers →
      (∀ observer, Request.observe observer ∈ requests →
        ∀ t s, written (observer t s) = written s) →
      written x.state = written s ++ x.delivered) := by
  intro columns total x
  have hx : InFrame r.size x := (InFrame.ofBegin hbegin s).follow hopen
  have htotal : Frame.cellCount r.size = total := by
    rw [Frame.cellCount, Frame.tilesAlong_eq_ceilDiv, Frame.tilesAlong_eq_ceilDiv]
    rfl
  rw [← htotal]
  refine ⟨fun i t => hx.delivered_cell, fun i j t u px py => hx.delivered_disjoint, hx.bounded,
    hx.remaining, hx.poll_ok_iff, hx.exists_completion,
    fun hall px py hpx hpy => hx.existsUnique_delivered hall hpx hpy, fun written hsees hnew => ?_⟩
  obtain ⟨new, hdelivered, hwritten⟩ := observed_eq_foldl (x := start opened s) hsees hnew
  rw [hwritten, List.foldl_append_eq_append, ← List.flatMap_def, List.flatMap_singleton',
    hdelivered]
  rfl

/-- A raster 300 pixels wide takes two tiles, although the size is set anew and a second beginning
    is refused between the two polls. -/
theorem frame_partition_wide :
    let r : TileRenderer Unit := TileRenderer.new.setSize ⟨300, 2⟩
    let opened : TileRenderer Unit := { r with frame := some (Frame.start ⟨300, 2⟩) }
    let requests : List (Request Unit) :=
      [.poll, .setHeight (.var .u), .poll, .setSize ⟨1, 1⟩, .begin, .poll]
    let x := (start opened ()).follow requests
    r.begin = .ok opened ∧ Request.finish ∉ requests ∧
    x.delivered.map Tile.rect = [⟨0, 0, 256, 2⟩, ⟨256, 0, 44, 2⟩] ∧
    ∀ px py, px < 300 → py < 2 →
      ∃! i : Nat, ∃ t : Tile, x.delivered[i]? = some t ∧ t.rect.Contains px py := by
  intro r opened requests x
  have hbegin : r.begin = .ok opened := rfl
  have hopen : Request.finish ∉ requests := by simp [requests]
  have htotal : (300 ⌈/⌉ 256) * (2 ⌈/⌉ 256) = 2 := by simp [Nat.ceilDiv_eq_add_pred_div]
  have hlength : x.delivered.length = 2 := rfl
  obtain ⟨-, -, -, -, -, -, hcovered, -⟩ := frame_partition hbegin () hopen
  exact ⟨hbegin, hopen, rfl, hcovered (hlength.trans htotal.symm)⟩

end Relief.Session
