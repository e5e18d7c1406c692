import Relief.Proofs.Agreement

set_option autoImplicit false

/-! # Crops: tiles that are sampled on their own

A tile that is sampled on its own does not know where it lies. Whatever the raster is and however the
tile is cut off at its edges, it shows the upper left corner of one and the same picture, the one
that a full tile shows (`Tile.ShowsCorner`, `crops_of_one_tile`). A raster of just one full tile is
that picture, and for it both ways of sampling are the same
(`TileRenderer.render_eq_whole`).

A frame is anything that a caller does between its beginning and its end, as long as the expression
and the sampling are in place before the first tile and stay what they are (`Session.Draws`). -/

namespace Relief

/-! ## Tiles -/

/-- Whether a tile shows the upper left corner of what a full tile shows of a field. -/
def Tile.ShowsCorner (field : Field Float32) (t : Tile) : Prop :=
  ∀ x y, x < t.width → y < t.height →
    t.heightAt? x y = some (field (Coords.ofPixel x y Tile.edge Tile.edge))

/-- Two tiles that show the corner of one field agree wherever both have a height. -/
theorem Tile.ShowsCorner.agree {field : Field Float32} {t u : Tile} (ht : t.ShowsCorner field)
    (hu : u.ShowsCorner field) {x y : Nat} (hx : x < min t.width u.width)
    (hy : y < min t.height u.height) : t.heightAt? x y = u.heightAt? x y := by
  rw [Nat.lt_min] at hx hy
  rw [ht x y hx.1 hy.1, hu x y hx.2 hy.2]

namespace TileRenderer

variable {field : Field Float32}

theorem showsCorner_render (field : Field Float32) (size : Size) (t : Tile) :
    (render field .perTile size t).ShowsCorner field :=
  fun _ _ hx hy => heightAt?_render field .perTile size t hx hy

/-- The tile of a raster that is one full tile. -/
def whole (field : Field Float32) : Tile :=
  render field .perTile ⟨Tile.edge, Tile.edge⟩ (Frame.start ⟨Tile.edge, Tile.edge⟩).nextTile

theorem rect_whole (field : Field Float32) : (whole field).rect = ⟨0, 0, 256, 256⟩ := rfl

/-- For this tile both ways of sampling are the same. -/
theorem render_eq_whole (field : Field Float32) (sampling : Sampling) :
    render field sampling ⟨Tile.edge, Tile.edge⟩ (Frame.start ⟨Tile.edge, Tile.edge⟩).nextTile
      = whole field := by
  cases sampling with
  | perTile => rfl
  | raster =>
      have hcoords : coords .raster ⟨Tile.edge, Tile.edge⟩
          (Frame.start ⟨Tile.edge, Tile.edge⟩).nextTile
          = coords .perTile ⟨Tile.edge, Tile.edge⟩
            (Frame.start ⟨Tile.edge, Tile.edge⟩).nextTile := by
        funext i
        exact congrArg₂ (fun x y => Coords.ofPixel x y Tile.edge Tile.edge) (Nat.zero_add _)
          (Nat.zero_add _)
      rw [whole, render, render, hcoords]

end TileRenderer

/-! ## Frames -/

/-- Whether a request leaves an open frame, its field and its sampling as they are. -/
def Request.Keeps {σ : Type} (field : Field Float32) (sampling : Sampling) : Request σ → Prop
  | .setSampling sampling' => sampling' = sampling
  | .setHeight e => ∀ field', e.compile .float = .ok field' → field' = field
  | .finish => False
  | .observe _ | .setSize _ | .begin | .poll => True

namespace Session

variable {σ τ : Type} {field : Field Float32} {sampling sampling' : Sampling} {size : Size}
  {e : Expr} {x : Session σ} {y : Session τ}

/-- **A drawing goes on as it is** under every request that keeps its field and its sampling. -/
theorem Drawing.serve_of_keeps (hx : Drawing field sampling size x) {q : Request σ}
    (hq : q.Keeps field sampling) : Drawing field sampling size (x.serve q) := by
  cases q with
  | setSampling sampling' => exact ⟨hx.toInFrame.serve (by simp), hx.height, hq, hx.tiles⟩
  | setHeight e =>
      have hframe : InFrame size (x.serve (.setHeight e)) := hx.toInFrame.serve (by simp)
      simp only [Session.serve, TileRenderer.setHeight] at hframe ⊢
      cases he : e.compile .float with
      | error err => exact hx
      | ok field' =>
          rw [he] at hframe
          exact ⟨hframe, congrArg some (hq field' he), hx.sampled, hx.tiles⟩
  | finish => exact hq.elim
  | observe | setSize | begin | poll => exact hx.serve rfl

/-- A session inside a frame of the given size that shows one expression, sampled in one way: after
    the beginning of the frame both were set before anything was polled, and nothing that was asked
    since has changed them. -/
def Draws (e : Expr) (sampling : Sampling) (size : Size) (x : Session σ) : Prop :=
  ∃ (r opened : TileRenderer σ) (s : σ) (settings requests : List (Request σ))
    (field : Field Float32),
    r.size = size ∧ r.begin = .ok opened ∧ (∀ q ∈ settings, q ≠ .finish ∧ q ≠ .poll) ∧
    e.compile .float = .ok field ∧
    ((start opened s).follow settings).renderer.height = some field ∧
    ((start opened s).follow settings).renderer.sampling = sampling ∧
    (∀ q ∈ requests, q.Keeps field sampling) ∧
    x = ((start opened s).follow settings).follow requests

namespace Draws

theorem drawing (hx : x.Draws e sampling size) (he : e.compile .float = .ok field) :
    Drawing field sampling size x := by
  obtain ⟨r, opened, s, settings, requests, field', rfl, hbegin, hsettings, he', hheight, hsampled,
    hkeeps, rfl⟩ := hx
  obtain rfl := Except.ok.inj (he.symm.trans he')
  have hbegun : Drawing field sampling r.size ((start opened s).follow settings) :=
    .ofSettings hbegin s hsettings hheight hsampled
  exact follow_invariant (P := Drawing field sampling r.size) (Q := (·.Keeps field sampling))
    (fun _ _ hy hq => hy.serve_of_keeps hq) hbegun hkeeps

end Draws

/-- The tiles of a drawing that are sampled on their own. -/
theorem Drawing.showsCorner (hx : Drawing field .perTile size x) {t : Tile}
    (ht : t ∈ x.delivered) : t.ShowsCorner field := by
  obtain ⟨i, hi⟩ := List.mem_iff_getElem?.1 ht
  rw [hx.tiles i t hi]
  exact TileRenderer.showsCorner_render _ _ _

theorem cellCount_whole : Frame.cellCount ⟨Tile.edge, Tile.edge⟩ = 1 := by decide

/-- A drawing of one full tile has delivered this tile, or nothing. -/
theorem Drawing.delivered_eq_whole (hx : Drawing field sampling ⟨Tile.edge, Tile.edge⟩ x) :
    x.delivered = List.replicate x.delivered.length (TileRenderer.whole field) := by
  refine List.eq_replicate_iff.2 ⟨rfl, fun t ht => ?_⟩
  obtain ⟨i, hi⟩ := List.mem_iff_getElem?.1 ht
  have hbounded := cellCount_whole ▸ hx.bounded
  have hlt := (List.getElem?_eq_some_iff.1 hi).1
  obtain rfl : i = 0 := by omega
  rw [hx.tiles 0 t hi]
  exact TileRenderer.render_eq_whole field sampling

theorem Drawing.delivered_of_isDone (hx : Drawing field sampling ⟨Tile.edge, Tile.edge⟩ x)
    (hdone : x.renderer.isDone = true) : x.delivered = [TileRenderer.whole field] := by
  have hlength : x.delivered.length = 1 := cellCount_whole ▸ hx.isDone_iff.1 hdone
  rw [hx.delivered_eq_whole, hlength]
  rfl

/-- There is a frame of one full tile that is done. -/
theorem exists_draws_whole (he : e.compile .float = .ok field) (sampling : Sampling) :
    ∃ x : Session Unit, x.Draws e sampling ⟨Tile.edge, Tile.edge⟩ ∧ x.renderer.isDone = true := by
  let r : TileRenderer Unit := ⟨⟨Tile.edge, Tile.edge⟩, sampling, [], none, some field⟩
  let opened : TileRenderer Unit := { r with frame := some (Frame.start r.size) }
  have hbegin : r.begin = .ok opened := rfl
  have hframe : InFrame r.size (start opened ()) := InFrame.ofBegin hbegin ()
  have hcells : Frame.cellCount r.size = 1 := cellCount_whole
  have hlength : ((start opened ()).follow [.poll]).delivered.length = Frame.cellCount r.size := by
    have hpolls := hframe.length_follow (by simp [start, opened, r])
      (List.forall_mem_singleton.2 (show Request.poll.isSteady = true from rfl))
    rw [hcells] at hpolls ⊢
    exact hpolls
  refine ⟨(start opened ()).follow [.poll],
    ⟨r, opened, (), [], [.poll], field, rfl, hbegin, ?_, he, rfl, rfl, ?_, rfl⟩,
    (hframe.follow (by simp)).isDone_iff.2 hlength⟩
  · exact fun q hq => absurd hq List.not_mem_nil
  · intro q hq
    rw [List.mem_singleton.1 hq]
    trivial

/-- **All tiles that are sampled on their own are crops of one.** Whatever the raster, the state of
    the renderer and the place of the tile, its heights are those of the upper left corner of the
    tile that a raster of one full tile has. So any two tiles of any frames agree wherever both have a
    height, and a frame of one full tile is the same for both ways of sampling. -/
theorem crops_of_one_tile (he : e.compile .float = .ok field) :
    (∀ (σ : Type) (r r' : TileRenderer σ) (t : Tile), r.height = some field →
      r.sampling = .perTile → r.renderNext = .ok (t, r') → t.ShowsCorner field) ∧
    (∀ (σ τ : Type) (size : Size) (x : Session σ) (single : Session τ),
      x.Draws e .perTile size → single.Draws e .perTile ⟨256, 256⟩ →
      single.renderer.isDone = true →
      ∃ whole, single.delivered = [whole] ∧ whole.rect = ⟨0, 0, 256, 256⟩ ∧
        ∀ t ∈ x.delivered, t.width ≤ 256 ∧ t.height ≤ 256 ∧
          ∀ lx ly, lx < t.width → ly < t.height →
            ∃ h, t.heightAt? lx ly = some h ∧ whole.heightAt? lx ly = some h) ∧
    (∀ (σ τ : Type) (size size' : Size) (x : Session σ) (y : Session τ),
      x.Draws e .perTile size → y.Draws e .perTile size' →
      ∀ t ∈ x.delivered, ∀ u ∈ y.delivered, ∀ lx ly, lx < min t.width u.width →
        ly < min t.height u.height → t.heightAt? lx ly = u.heightAt? lx ly) ∧
    (∀ (σ τ : Type) (x : Session σ) (y : Session τ),
      x.Draws e .perTile ⟨256, 256⟩ → y.Draws e .raster ⟨256, 256⟩ →
      (x.delivered.length = y.delivered.length → x.delivered = y.delivered) ∧
      (x.renderer.isDone = true → y.renderer.isDone = true → x.delivered = y.delivered)) ∧
    ∀ sampling, ∃ x : Session Unit,
      x.Draws e sampling ⟨256, 256⟩ ∧ x.renderer.isDone = true := by
  refine ⟨fun σ r r' t hheight hsampled hnext => ?_,
    fun σ τ size x single hx hsingle hdone => ?_,
    fun σ τ size size' x y hx hy t ht u hu lx ly hlx hly => ?_,
    fun σ τ x y hx hy => ⟨fun hlength => ?_, fun hdone hdone' => ?_⟩, exists_draws_whole he⟩
  · obtain ⟨f, field', -, hfield, -, rfl, -⟩ := TileRenderer.renderNext_eq_ok_iff.1 hnext
    rw [hheight] at hfield
    obtain rfl := Option.some.inj hfield
    rw [hsampled]
    exact TileRenderer.showsCorner_render _ _ _
  · refine ⟨TileRenderer.whole field, (hsingle.drawing he).delivered_of_isDone hdone,
      TileRenderer.rect_whole field, fun t ht => ?_⟩
    have hframe := hx.drawing he
    obtain ⟨i, hi⟩ := List.mem_iff_getElem?.1 ht
    obtain ⟨-, ⟨-, hwidth, -⟩, -, hheight, -⟩ := hframe.delivered_cell hi
    have hcorner := hframe.showsCorner ht
    refine ⟨hwidth, hheight, fun lx ly hlx hly => ⟨_, hcorner lx ly hlx hly, ?_⟩⟩
    exact TileRenderer.showsCorner_render _ _ _ lx ly (Nat.lt_of_lt_of_le hlx hwidth)
      (Nat.lt_of_lt_of_le hly hheight)
  · exact ((hx.drawing he).showsCorner ht).agree ((hy.drawing he).showsCorner hu) hlx hly
  · rw [(hx.drawing he).delivered_eq_whole, (hy.drawing he).delivered_eq_whole, hlength]
  · rw [(hx.drawing he).delivered_of_isDone hdone, (hy.drawing he).delivered_of_isDone hdone']

/-- The second tile of a raster 300 pixels wide has 44 columns, and its last sample is that of the
    same place in a full tile. -/
theorem crops_of_one_tile_narrow :
    let field : Field Float32 := fun c => c.along .u
    let r : TileRenderer Unit := ⟨⟨300, 2⟩, .perTile, [], none, some field⟩
    let opened : TileRenderer Unit := { r with frame := some (Frame.start ⟨300, 2⟩) }
    let x := (start opened ()).follow [.poll, .setSampling .perTile, .poll]
    (Expr.var .u).compile .float = .ok field ∧ x.Draws (.var .u) .perTile ⟨300, 2⟩ ∧
    ∃ (single : Session Unit) (t whole : Tile), single.Draws (.var .u) .perTile ⟨256, 256⟩ ∧
      x.delivered[1]? = some t ∧ t.rect = ⟨256, 0, 44, 2⟩ ∧ single.delivered = [whole] ∧
      ∃ h, t.heightAt? 43 1 = some h ∧ whole.heightAt? 43 1 = some h := by
  intro field r opened x
  have he : (Expr.var .u).compile .float = .ok field := rfl
  have hx : x.Draws (.var .u) .perTile ⟨300, 2⟩ := by
    refine ⟨r, opened, (), [], [.poll, .setSampling .perTile, .poll], field, rfl, rfl, by simp, he,
      rfl, rfl, ?_, rfl⟩
    simp [Request.Keeps]
  obtain ⟨-, hcrops, -, -, hsingles⟩ := crops_of_one_tile he
  obtain ⟨single, hsingle, hdone⟩ := hsingles .perTile
  obtain ⟨whole, hwhole, -, hall⟩ := hcrops Unit Unit ⟨300, 2⟩ x single hx hsingle hdone
  obtain ⟨t, ht, hrect⟩ : ∃ t, x.delivered[1]? = some t ∧ t.rect = ⟨256, 0, 44, 2⟩ :=
    ⟨_, rfl, rfl⟩
  have hwidth : t.width = 44 := congrArg Rect.width hrect
  have hheight : t.height = 2 := congrArg Rect.height hrect
  obtain ⟨-, -, hsame⟩ := hall t (List.mem_of_getElem? ht)
  exact ⟨he, hx, single, t, whole, hsingle, ht, hrect, hwhole,
    hsame 43 1 (by rw [hwidth]; decide) (by rw [hheight]; decide)⟩

end Session

end Relief
