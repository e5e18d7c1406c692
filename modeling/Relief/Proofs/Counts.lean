import Mathlib.Algebra.BigOperators.Ring.Finset
import Relief.Proofs.Deliveries
import Relief.Proofs.Previews
import Relief.Proofs.Triangulations

set_option autoImplicit false

/-! # Counts: the triangles of all tiles of a frame

A quad lies between samples of one tile, so along a side of the raster there are as many pairs of
neighbours as pixels, less one for each tile (`Frame.sum_cellLength`). The quads of a tile are its
pairs of columns times its pairs of rows, and the tiles are the cells of a grid; this is why the
quads of all of them are a product again (`Frame.sum_quads`). Tiles that are one sample wide or high
have none.

An observer that counts triangles finds two in every quad. That it ends with the product is shown for
sessions, from the tiles that they deliver (`Session.InFrame.quadsOf_delivered`), and for the runs of
a job, from the tiles that they show (`TileRenderer.quadsOf_drawable`). -/

namespace Relief

/-- The number of quads between the pixels of a rectangle. -/
def Rect.quads (r : Rect) : Nat := Tile.quadCount r.width r.height

/-- The number of quads of some tiles together. -/
def Tile.quadsOf (tiles : List Tile) : Nat := (tiles.map fun t => t.rect.quads).sum

/-! ## Sums over a grid -/

/-- A grid of products sums up to the product of the sums along its sides. -/
theorem sum_rowMajor (f g : Nat → Nat) (columns rows : Nat) :
    ∑ i ∈ Finset.range (columns * rows), f (i % columns) * g (i / columns)
      = (∑ x ∈ Finset.range columns, f x) * ∑ y ∈ Finset.range rows, g y := by
  induction rows with
  | zero => simp
  | succ rows ih =>
      have hrow : ∀ x ∈ Finset.range columns, f ((columns * rows + x) % columns)
          * g ((columns * rows + x) / columns) = f x * g rows := by
        intro x hx
        obtain ⟨hcolumn, hrow⟩ := (rowMajor_iff (Finset.mem_range.1 hx)).2
          (rfl : rows * columns + x = _)
        rw [Nat.mul_comm columns, hcolumn, hrow]
      rw [Nat.mul_succ, Finset.sum_range_add, ih, Finset.sum_congr rfl hrow, ← Finset.sum_mul,
        Finset.sum_range_succ, Nat.mul_add]

namespace Frame

/-- The stretches of a side have together as many pixels as the side; each has one pair of
    neighbours fewer than pixels. -/
theorem sum_cellLength (length : Nat) :
    ∑ c ∈ Finset.range (tilesAlong length), (cellLength (c * Tile.edge) length - 1)
      = length - tilesAlong length := by
  -- The first `n` stretches reach as far as `n` full tiles, or to the end.
  have hreach : ∀ n ≤ tilesAlong length,
      ∑ c ∈ Finset.range n, (cellLength (c * Tile.edge) length - 1) + n
        = min (n * Tile.edge) length := by
    intro n
    induction n with
    | zero => simp
    | succ n ih =>
        intro hn
        have hpos := cellLength_pos hn
        have hbefore := ih (Nat.le_of_succ_le hn)
        rw [Finset.sum_range_succ]
        simp only [cellLength, Tile.edge] at *
        omega
  have hall := hreach _ (Nat.le_refl _)
  have hend : length ≤ tilesAlong length * Tile.edge := by
    simp only [tilesAlong, Tile.edge]
    omega
  omega

/-- The number of quads of a raster that is cut into cells. -/
def quads (size : Size) : Nat :=
  (size.width - tilesAlong size.width) * (size.height - tilesAlong size.height)

/-- **The quads of all cells**: the pixels along each side, less one for each cell along it,
    multiplied. -/
theorem sum_quads (size : Size) :
    ((List.range (cellCount size)).map fun i => (cell size i).quads).sum = quads size := by
  let along (length c : Nat) := cellLength (c * Tile.edge) length - 1
  calc ((List.range (cellCount size)).map fun i => (cell size i).quads).sum
    _ = ∑ i ∈ Finset.range (tilesAlong size.width * tilesAlong size.height),
          along size.width (i % tilesAlong size.width)
            * along size.height (i / tilesAlong size.width) := rfl
    _ = (∑ c ∈ Finset.range (tilesAlong size.width), along size.width c)
          * ∑ c ∈ Finset.range (tilesAlong size.height), along size.height c :=
        sum_rowMajor _ _ _ _
    _ = quads size := by rw [sum_cellLength size.width, sum_cellLength size.height, quads]

/-- Tiles that are the cells of a raster have the quads of the cells. -/
theorem quadsOf_eq {size : Size} {tiles : List Tile}
    (htiles : tiles.map Tile.rect = (List.range (cellCount size)).map (cell size)) :
    Tile.quadsOf tiles = quads size := by
  have hquads : tiles.map (fun t => t.rect.quads) = (tiles.map Tile.rect).map Rect.quads := by
    rw [List.map_map]
    rfl
  rw [Tile.quadsOf, hquads, htiles, List.map_map]
  exact sum_quads size

end Frame

/-! ## The tiles of a frame -/

/-- The tiles of a frame that is done have all quads of its raster. -/
theorem Session.InFrame.quadsOf_delivered {σ : Type} {size : Size} {x : Session σ}
    (hx : InFrame size x) (hall : x.delivered.length = Frame.cellCount size) :
    Tile.quadsOf x.delivered = Frame.quads size := by
  refine Frame.quadsOf_eq (List.ext_getElem (by simp [hall]) fun i hi hi' => ?_)
  rw [List.getElem_map, List.getElem_map, List.getElem_range]
  exact hx.rects i _ (List.getElem?_eq_getElem _)

/-- So have all tiles that a renderer can deliver. -/
theorem TileRenderer.quadsOf_drawable {σ : Type} {r : TileRenderer σ}
    (hall : (r.drawable (Frame.cellCount r.size)).length = Frame.cellCount r.size) :
    Tile.quadsOf (r.drawable (Frame.cellCount r.size)) = Frame.quads r.size := by
  cases hfield : r.height with
  | none =>
      -- Without a field nothing can be delivered, so that the raster has no cells.
      rw [drawable, hfield] at hall
      have hnone : Frame.cellCount r.size = 0 := hall.symm
      refine Frame.quadsOf_eq ?_
      rw [hnone, drawable_zero]
      rfl
  | some field =>
      refine Frame.quadsOf_eq ?_
      rw [drawable_of_field hfield, firstTiles, List.map_map]
      exact List.map_congr_left fun i _ => r.rect_tileAt field i

namespace Command.Preview

/-! ## Counting observers -/

/-- Whether an observer leaves the count of triangles alone. -/
def KeepsCount (observer : TileObserver Progress) : Prop :=
  ∀ t s, (observer t s).triangles = s.triangles

/-- Whether one of some observers counts triangles and the others leave the count alone. -/
def CountsOnce (observers : List (TileObserver Progress)) : Prop :=
  ∃ before after, observers = before ++ countTriangles :: after ∧
    ∀ observer ∈ before ++ after, KeepsCount observer

/-- A tile has a mesh, and two triangles for every quad. -/
theorem triangles_countTriangles (t : Tile) (s : Progress) :
    (countTriangles t s).triangles = s.triangles + 2 * t.rect.quads := by
  obtain ⟨m, hok, hm⟩ := Mesh.exists_complete t
  rw [countTriangles, hok]
  show s.triangles + m.triangleCount = _
  rw [hm.triangleCount_eq, hm.normalCount]
  rfl

theorem triangles_notify {observers : List (TileObserver Progress)}
    (hothers : ∀ observer ∈ observers, KeepsCount observer) (t : Tile) (s : Progress) :
    (TileRenderer.notify observers t s).triangles = s.triangles := by
  induction observers generalizing s with
  | nil => rfl
  | cons observer rest ih =>
      have hfirst : (observer t s).triangles = s.triangles := hothers _ (List.mem_cons_self ..) t s
      rw [← hfirst]
      exact ih (fun o ho => hothers o (List.mem_cons_of_mem _ ho)) (observer t s)

/-- Where one observer counts, the count grows with every tile by its triangles. -/
theorem CountsOnce.sees {observers : List (TileObserver Progress)} (hcounts : CountsOnce observers) :
    Session.Sees Progress.triangles (fun t n => n + 2 * t.rect.quads) observers := by
  obtain ⟨before, after, rfl, hothers⟩ := hcounts
  intro t s
  have hsplit : TileRenderer.notify (before ++ countTriangles :: after) t s
      = TileRenderer.notify after t (countTriangles t (TileRenderer.notify before t s)) := by
    simp only [TileRenderer.notify, List.foldl_append, List.foldl_cons]
  rw [hsplit, triangles_notify fun o ho => hothers o (List.mem_append_right _ ho),
    triangles_countTriangles, triangles_notify fun o ho => hothers o (List.mem_append_left _ ho)]

theorem keepsCount_collect : KeepsCount collect := fun _ _ => rfl

theorem keepsCount_limitTo (limit : Nat) : KeepsCount (limitTo limit) := fun _ _ => rfl

/-- The observers of a preview count once, with and without a limit. -/
theorem countsOnce_renderer {p : Project} {limit : Option Nat} {r : TileRenderer Progress}
    (hr : renderer p limit = .ok r) : CountsOnce r.observers := by
  obtain ⟨⟨field, hfield⟩, -⟩ := p.exprs_compile
  have hobserved : renderer p limit = .ok (override limit (fun r n => r.observe (limitTo n))
      ⟨p.size, p.sampling, [collect, countTriangles], none, some field⟩) := by
    simp only [renderer, TileRenderer.setHeight, hfield]
    rfl
  obtain rfl := Except.ok.inj (hr.symm.trans hobserved)
  cases limit with
  | none => exact ⟨[collect], [], rfl, by simpa using keepsCount_collect⟩
  | some n =>
      refine ⟨[collect], [limitTo n], rfl, ?_⟩
      simpa using ⟨keepsCount_collect, keepsCount_limitTo n⟩

/-- What is counted while some tiles are shown. -/
theorem foldl_quads (tiles : List Tile) (n : Nat) :
    tiles.foldl (fun n t => n + 2 * t.rect.quads) n = n + 2 * Tile.quadsOf tiles := by
  induction tiles generalizing n with
  | nil => rfl
  | cons t rest ih =>
      rw [List.foldl_cons, ih, Tile.quadsOf, Tile.quadsOf, List.map_cons, List.sum_cons]
      omega

/-! ## The count of a whole frame -/

/-- Counting all tiles of a session gives the triangles of its frame. -/
theorem triangles_of_isDone {r opened : TileRenderer Progress} (hbegin : r.begin = .ok opened)
    (hcounts : CountsOnce r.observers) (s : Progress) {requests : List (Relief.Request Progress)}
    (hopen : Request.finish ∉ requests)
    (hothers : ∀ observer, Request.observe observer ∈ requests → KeepsCount observer)
    (hdone : ((Session.start opened s).follow requests).renderer.isDone = true) :
    ((Session.start opened s).follow requests).state.triangles
      = s.triangles + 2 * Frame.quads r.size := by
  have hframe := (Session.InFrame.ofBegin hbegin s).follow hopen
  have hsees : Session.Sees Progress.triangles (fun t n => n + 2 * t.rect.quads)
      opened.observers := by
    obtain ⟨-, rfl⟩ := TileRenderer.begin_eq_ok_iff.1 hbegin
    exact hcounts.sees
  obtain ⟨new, hdelivered, hstate⟩ :=
    Session.observed_eq_foldl (x := Session.start opened s) hsees hothers
  have hnew : ((Session.start opened s).follow requests).delivered = new := hdelivered
  have hquads := hframe.quadsOf_delivered (hframe.isDone_iff.1 hdone)
  rw [hnew] at hquads
  rw [hstate, foldl_quads, hquads]
  rfl

/-- So does a job that ends well. -/
theorem triangles_of_runs {job : RenderJob} {h : RenderJob.Handle Progress}
    {meanwhile : Progress → Progress → Prop} {r : TileRenderer Progress} {s : Progress}
    {ended : RenderJob.Ended Progress} (hrun : job.Runs h meanwhile r s ended)
    (hcounts : CountsOnce r.observers)
    (hkeeps : ∀ s s', meanwhile s s' → s'.triangles = s.triangles) {summary : RenderSummary}
    (hresult : ended.result = .ok summary) :
    ended.state.triangles = s.triangles + 2 * Frame.quads r.size := by
  obtain ⟨hall, hstate⟩ := hrun.shown_all hcounts.sees hkeeps hresult
  rw [hstate, foldl_quads, TileRenderer.quadsOf_drawable hall]

/-- **The triangles of a whole frame.** However a frame is rendered to its end, every tile of it has
    a mesh, and an observer that counts triangles has counted two for every pair of neighbouring
    columns that lie in one tile with every such pair of rows. A frame can be rendered to its end
    with every expression that is a number; a job that ends well has done so, whatever other tasks
    have done in the meantime. -/
theorem triangles_of_frame {r opened : TileRenderer Progress} (hbegin : r.begin = .ok opened)
    (hcounts : CountsOnce r.observers) (s : Progress) {requests : List (Relief.Request Progress)}
    (hopen : Request.finish ∉ requests)
    (hothers : ∀ observer, Request.observe observer ∈ requests → KeepsCount observer) :
    let columns := r.size.width ⌈/⌉ 256
    let rows := r.size.height ⌈/⌉ 256
    let counted := s.triangles + 2 * (r.size.width - columns) * (r.size.height - rows)
    let x := (Session.start opened s).follow requests
    (∀ t ∈ x.delivered, ∃ m, Mesh.ofTile t = .ok m) ∧
    (x.renderer.isDone = true → x.state.triangles = counted) ∧
    (∀ e field, e.compile .float = .ok field →
      let y := x.follow (.setHeight e :: List.replicate (columns * rows) .poll)
      y.renderer.isDone = true ∧ (∀ t ∈ y.delivered, ∃ m, Mesh.ofTile t = .ok m) ∧
        y.state.triangles = counted) ∧
    ∀ (job : RenderJob) (h : RenderJob.Handle Progress) (meanwhile : Progress → Progress → Prop)
      (ended : RenderJob.Ended Progress),
      (∀ s s', meanwhile s s' → s'.triangles = s.triangles) → job.Runs h meanwhile r s ended →
      ∀ summary, ended.result = .ok summary → ended.state.triangles = counted := by
  intro columns rows counted x
  have hcounted : s.triangles + 2 * Frame.quads r.size = counted := by
    rw [Frame.quads, Frame.tilesAlong_eq_ceilDiv, Frame.tilesAlong_eq_ceilDiv, ← Nat.mul_assoc]
    rfl
  have htotal : Frame.cellCount r.size = columns * rows := Frame.cellCount_eq_ceilDiv r.size
  have hmeshes (tiles : List Tile) : ∀ t ∈ tiles, ∃ m, Mesh.ofTile t = .ok m := by
    intro t _
    obtain ⟨m, hok, -⟩ := Mesh.exists_complete t
    exact ⟨m, hok⟩
  refine ⟨hmeshes _, fun hdone => ?_, fun e field he => ?_,
    fun job h meanwhile ended hkeeps hrun summary hresult => ?_⟩
  · rw [← hcounted]
    exact triangles_of_isDone hbegin hcounts s hopen hothers hdone
  · intro y
    let more : List (Relief.Request Progress) :=
      .setHeight e :: List.replicate (columns * rows) .poll
    have hframe : Session.InFrame r.size x := (Session.InFrame.ofBegin hbegin s).follow hopen
    have hy : y = (Session.start opened s).follow (requests ++ more) :=
      List.foldl_append.symm
    have hdone : y.renderer.isDone = true := by
      refine (hframe.follow (by simp)).isDone_iff.2 ?_
      rw [← htotal]
      exact hframe.length_completed he
    refine ⟨hdone, hmeshes _, ?_⟩
    rw [hy] at hdone ⊢
    rw [← hcounted]
    refine triangles_of_isDone hbegin hcounts s (by simp [hopen, more]) (fun o ho => ?_) hdone
    exact hothers o (by simpa [more] using ho)
  · rw [← hcounted]
    exact triangles_of_runs hrun hcounts hkeeps hresult

/-- A preview of two tiles, the second one narrower: as a job, and polled with an observer more from
    its second tile on. -/
theorem triangles_of_frame_two_tiles :
    let p : Project := { Project.standard with size := ⟨300, 2⟩ }
    ∃ r opened : TileRenderer Progress, renderer p none = .ok r ∧ r.begin = .ok opened ∧
      CountsOnce r.observers ∧
      let start : Progress := ⟨Mosaic.new p.size p.range, 0, 0, false⟩
      let requests : List (Relief.Request Progress) := [.poll, .observe (limitTo 9)]
      let ended := RenderJob.run ⟨RenderJob.standardTick⟩ Progress.cancelled r start
      let polled := ((Session.start opened start).follow requests).follow
        [.setHeight p.heightExpr, .poll, .poll]
      Request.finish ∉ requests ∧
      (∀ observer, Request.observe observer ∈ requests → KeepsCount observer) ∧
      ended.result = .ok ⟨2, 2⟩ ∧ ended.state.triangles = 596 ∧
      polled.renderer.isDone = true ∧ polled.state.triangles = 596 := by
  intro p
  obtain ⟨⟨field, hfield⟩, -⟩ := p.exprs_compile
  obtain ⟨r, hr, hsize, hidle, hheight, hobservers⟩ : ∃ r, renderer p none = .ok r ∧
      r.size = ⟨300, 2⟩ ∧ r.frame = none ∧ r.height = some field ∧
      r.observers = [collect, countTriangles] :=
    ⟨_, renderer_eq_ok hfield, rfl, rfl, rfl, rfl⟩
  have hbegin : r.begin = .ok (r.opened 0) := TileRenderer.begin_of_idle hidle
  have hcounts : CountsOnce r.observers := countsOnce_renderer hr
  refine ⟨r, r.opened 0, hr, hbegin, hcounts, ?_⟩
  intro start requests ended polled
  have hopen : Request.finish ∉ requests := by simp [requests]
  have hothers : ∀ observer, Request.observe observer ∈ requests → KeepsCount observer := by
    simpa [requests] using keepsCount_limitTo 9
  obtain ⟨-, -, hcompleted, hruns⟩ := triangles_of_frame hbegin hcounts start hopen hothers
  have htiles : (300 ⌈/⌉ 256) * (2 ⌈/⌉ 256) = 2 := by simp [Nat.ceilDiv_eq_add_pred_div]
  have htriangles : 0 + 2 * (300 - 300 ⌈/⌉ 256) * (2 - 2 ⌈/⌉ 256) = 596 := by
    simp [Nat.ceilDiv_eq_add_pred_div]
  have hstart : start.triangles = 0 := rfl
  simp only [hsize, hstart, htiles, htriangles] at hcompleted hruns
  obtain ⟨hdone, -, hpolled⟩ := hcompleted p.heightExpr field hfield
  -- The flag of a preview without a limit is never set, so its job ends well.
  have hcells : Frame.cellCount ⟨300, 2⟩ = 2 := by decide
  have htick : 0 < RenderJob.standardTick := by decide
  have hwrapped : r.size.wrapped = r.size := by
    rw [hsize]
    decide
  have hresult := (mosaic_of_run p.range htick hidle hheight hobservers hwrapped).1
  rw [hsize, hcells] at hresult
  have hrun : RenderJob.Runs ⟨RenderJob.standardTick⟩ ⟨Progress.cancelled, fun _ => false⟩ Eq r
      start ended := RenderJob.runs_run (fun _ => rfl) _ _ _
  have hsame : ∀ s s' : Progress, s = s' → s'.triangles = s.triangles := by
    rintro s - rfl
    rfl
  exact ⟨hopen, hothers, hresult, hruns _ _ Eq _ hsame hrun _ hresult, hdone, hpolled⟩

end Command.Preview

end Relief
