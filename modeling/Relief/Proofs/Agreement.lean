import Relief.Proofs.Partition
import Relief.Proofs.Scanlines
import Relief.Render.Canvas

set_option autoImplicit false

/-! # Agreement: one height field, three ways to draw it

A raster can be drawn row by row, as a whole, or tile by tile. The three ways number the pixels
differently: by row and place in the row, by one index over the raster, and by tile and place in
the tile. For each of them it is said where the height of a pixel ends up and that it is the value
of the field at the centre of the pixel (`ScanlineRenderer.execute_height`,
`Canvas.getElem?_computeHeights`, `Drawing.heightAt?_delivered`); that the three agree
(`heights_agree`) is then plain. -/

namespace Relief

/-! ## Row by row -/

/-- The height of a pixel stands first among the four numbers of its place in its row. -/
theorem ScanlineRenderer.execute_height {e colors : Expr} {field : Field Float32}
    {color : Field Color} (he : e.compile .float = .ok field)
    (hcolors : colors.compile .vec3 = .ok color) {size : Size} {px py : Nat}
    (hpx : px < size.width) (hpy : py < size.height) :
    ∃ rows row,
      (do
        let r ← (ScanlineRenderer.new size).setHeight e
        let r ← r.setColor colors
        r.execute (fun row rows => rows ++ [row]) []) = .ok rows ∧
      rows.length = size.height ∧ rows[py]? = some row ∧
      row[px * 4]? = some (field (Coords.ofPixel px py size.width size.height)) := by
  refine ⟨(List.range size.height).map (ScanlineRenderer.row field color size),
    ScanlineRenderer.row field color size py, ?_, ?_, ?_,
    ScanlineRenderer.getElem?_row_height hpx py⟩
  · rw [ScanlineRenderer.render_eq_ok_foldl he hcolors, ScanlineRenderer.foldl_collect_rows]
  · rw [List.length_map, List.length_range]
  · rw [List.getElem?_map, List.getElem?_range hpy]
    rfl

/-! ## Tile by tile -/

namespace Session

variable {σ : Type} {field : Field Float32} {sampling : Sampling} {size : Size} {x : Session σ}

/-- A session inside a frame whose tiles all show one field, sampled in one way. -/
structure Drawing (field : Field Float32) (sampling : Sampling) (size : Size) (x : Session σ) :
    Prop extends InFrame size x where
  height : x.renderer.height = some field
  sampled : x.renderer.sampling = sampling
  tiles : ∀ i t, x.delivered[i]? = some t →
    t = TileRenderer.render field sampling size (Frame.after size i).nextTile

namespace Drawing

/-- A frame of which nothing is delivered yet shows what is set by then. -/
theorem ofSettings {r opened : TileRenderer σ} (hbegin : r.begin = .ok opened) (s : σ)
    {settings : List (Request σ)} (hsettings : ∀ q ∈ settings, q ≠ .finish ∧ q ≠ .poll)
    (hheight : ((start opened s).follow settings).renderer.height = some field)
    (hsampled : ((start opened s).follow settings).renderer.sampling = sampling) :
    Drawing field sampling r.size ((start opened s).follow settings) := by
  have hbegun : InFrame r.size (start opened s) := InFrame.ofBegin hbegin s
  have hblank := hbegun.delivered_follow hsettings
  refine ⟨hbegun.follow fun hfinish => (hsettings _ hfinish).1 rfl, hheight, hsampled, ?_⟩
  intro i t ht
  rw [hblank] at ht
  cases ht

/-- A poll delivers the next tile of the same field, or nothing. -/
theorem tiles_pollOnce (hx : Drawing field sampling size x) {i : Nat} {t : Tile}
    (ht : x.pollOnce.delivered[i]? = some t) :
    t = TileRenderer.render field sampling size (Frame.after size i).nextTile := by
  rcases pollOnce_cases hx.frame with ⟨field', hfield, -, -, hdelivered⟩ | ⟨-, heq⟩
  · obtain rfl : field' = field := by
      rw [hx.height] at hfield
      exact (Option.some.inj hfield).symm
    rw [hdelivered] at ht
    rcases getElem?_concat_cases ht with ht | ⟨rfl, rfl⟩
    · exact hx.tiles i t ht
    · rw [hx.sampled]
      rfl
  · rw [heq] at ht
    exact hx.tiles i t ht

/-- **A drawing goes on as it is** under every steady request, also when a new size is set. -/
theorem serve (hx : Drawing field sampling size x) {q : Request σ} (hq : q.isSteady = true) :
    Drawing field sampling size (x.serve q) := by
  have hfinish : q ≠ .finish := Request.ne_finish_of_isSteady hq
  obtain ⟨hheight, hsampled⟩ := serve_settings x hq
  refine ⟨hx.toInFrame.serve hfinish, hheight.trans hx.height, hsampled.trans hx.sampled, ?_⟩
  intro i t ht
  by_cases hpoll : q = .poll
  · rw [hpoll] at ht
    exact hx.tiles_pollOnce ht
  · rw [(serve_of_ne_poll hx.frame hfinish hpoll).2] at ht
    exact hx.tiles i t ht

theorem follow (hx : Drawing field sampling size x) {requests : List (Request σ)}
    (hsteady : ∀ q ∈ requests, q.isSteady = true) :
    Drawing field sampling size (x.follow requests) :=
  follow_invariant (P := Drawing field sampling size) (Q := (·.isSteady = true))
    (fun _ _ hy hq => hy.serve hq) hx hsteady

/-- A delivered tile that is sampled by the raster shows every pixel that lies in it, at the place
    of the pixel in the tile. -/
theorem heightAt?_delivered (hx : Drawing field .raster size x) {i : Nat} {t : Tile}
    (ht : x.delivered[i]? = some t) {px py : Nat} (hin : t.rect.Contains px py) :
    t.heightAt? (px - t.offsetX) (py - t.offsetY)
      = some (field (Coords.ofPixel px py size.width size.height)) := by
  obtain ⟨⟨hleft, hright⟩, htop, hbottom⟩ := hin
  have hcolumn : px - t.offsetX < t.width := Nat.sub_lt_left_of_lt_add hleft hright
  have hrow : py - t.offsetY < t.height := Nat.sub_lt_left_of_lt_add htop hbottom
  have hx' : t.offsetX + (px - t.offsetX) = px := Nat.add_sub_of_le hleft
  have hy' : t.offsetY + (py - t.offsetY) = py := Nat.add_sub_of_le htop
  -- All that is needed of the tile is that it was rendered: its place and size are its own.
  obtain ⟨u, rfl⟩ : ∃ u, t = TileRenderer.render field .raster size u := ⟨_, hx.tiles i t ht⟩
  rw [TileRenderer.heightAt?_render field .raster size u hcolumn hrow]
  rw [TileRenderer.coordsAt]
  exact congrArg₂ (fun x y => some (field (Coords.ofPixel x y size.width size.height))) hx' hy'

end Drawing

end Session

/-! ## All three -/

/-- **The three ways to draw a raster agree on every height.** The value of the height field at the
    centre of a pixel is the first number of its place in its row, whatever the colours are; it is
    in the map of a canvas that was brought to this size and expression, whatever it showed before;
    and it is in the one tile that covers the pixel when a frame of this size is polled until it is
    done, whatever sizes are set and observers are registered in the meantime. -/
theorem heights_agree {e : Expr} {field : Field Float32} (he : e.compile .float = .ok field)
    {size : Size} {px py : Nat} (hpx : px < size.width) (hpy : py < size.height) :
    let h := field (Coords.ofPixel px py size.width size.height)
    (∀ (colors : Expr) (color : Field Color), colors.compile .vec3 = .ok color →
      ∃ rows row,
        (do
          let r ← (ScanlineRenderer.new size).setHeight e
          let r ← r.setColor colors
          r.execute (fun row rows => rows ++ [row]) []) = .ok rows ∧
        rows.length = size.height ∧ rows[py]? = some row ∧ row[px * 4]? = some h) ∧
    (∀ (σ : Type) (c : Canvas σ) (s : σ),
      (((c.resize size).setHeight (some e)).1.computeHeights s).1.heights[py * size.width + px]?
        = some h ∧
      (((c.setHeight (some e)).1.resize size).computeHeights s).1.heights[py * size.width + px]?
        = some h) ∧
    (∀ (σ : Type) (r opened : TileRenderer σ) (s : σ) (settings requests : List (Request σ)),
      r.size = size → r.begin = .ok opened →
      (∀ q ∈ settings, q ≠ .finish ∧ q ≠ .poll) → (∀ q ∈ requests, q.isSteady = true) →
      let begun := (Session.start opened s).follow settings
      let x := begun.follow requests
      begun.renderer.height = some field → begun.renderer.sampling = .raster →
      (x.renderer.isDone = true ↔ Frame.cellCount size ≤ requests.countP Request.isPoll) ∧
      (x.renderer.isDone = true →
        ∃! i : Nat, ∃ t : Tile, x.delivered[i]? = some t ∧ t.rect.Contains px py) ∧
      ∀ (i : Nat) (t : Tile), x.delivered[i]? = some t → t.rect.Contains px py →
        t.heightAt? (px - t.offsetX) (py - t.offsetY) = some h) := by
  intro h
  refine ⟨fun colors color hcolors => ScanlineRenderer.execute_height he hcolors hpx hpy,
    fun σ c s => ⟨?_, ?_⟩, ?_⟩
  · rw [Canvas.setHeight_of_compile he]
    exact Canvas.getElem?_computeHeights (by simp [Canvas.resize]) s hpx hpy
  · rw [Canvas.setHeight_of_compile he]
    exact Canvas.getElem?_computeHeights (by simp [Canvas.resize]) s hpx hpy
  · rintro σ r opened s settings requests rfl hbegin hsettings hsteady begun x hheight hsampled
    have hbegun : Session.Drawing field .raster r.size begun :=
      .ofSettings hbegin s hsettings hheight hsampled
    have hx : Session.Drawing field .raster r.size x := hbegun.follow hsteady
    have hlength : x.delivered.length
        = min (0 + requests.countP Request.isPoll) (Frame.cellCount r.size) := by
      have hblank := (Session.InFrame.ofBegin hbegin s).delivered_follow hsettings
      have hlength := hbegun.length_follow (by simp [hheight]) hsteady
      rwa [hblank] at hlength
    refine ⟨?_, fun hdone => ?_, fun i t ht hin => hx.heightAt?_delivered ht hin⟩
    · rw [hx.isDone_iff]
      omega
    · exact hx.existsUnique_delivered (hx.isDone_iff.1 hdone) hpx hpy

/-- The last pixel of a raster 300 pixels wide, which lies in the second tile. -/
theorem heights_agree_ramp :
    let field : Field Float32 := fun c => c.along .u
    let colors : Expr := .vec3 (.var .u) (.var .v) (.var .u)
    let size : Size := ⟨300, 2⟩
    let h := field (Coords.ofPixel 299 1 300 2)
    let canvas : Canvas Unit := ((Canvas.new.resize size).setHeight (some (.var .u))).1
    let r : TileRenderer Unit := ⟨size, .raster, [], none, some field⟩
    let opened : TileRenderer Unit := { r with frame := some (Frame.start size) }
    let requests : List (Request Unit) := [.poll, .setSize ⟨1, 1⟩, .poll]
    let x := (Session.start opened ()).follow requests
    (Expr.var .u).compile .float = .ok field ∧ 299 < size.width ∧ 1 < size.height ∧
    (∃ rows row,
      (do
        let r ← (ScanlineRenderer.new size).setHeight (.var .u)
        let r ← r.setColor colors
        r.execute (fun row rows => rows ++ [row]) []) = .ok rows ∧
      rows[1]? = some row ∧ row[299 * 4]? = some h) ∧
    (canvas.computeHeights ()).1.heights[1 * 300 + 299]? = some h ∧
    r.begin = .ok opened ∧ x.renderer.isDone = true ∧
    ∃ (i : Nat) (t : Tile), x.delivered[i]? = some t ∧
      t.heightAt? (299 - t.offsetX) (1 - t.offsetY) = some h := by
  intro field colors size h canvas r opened requests x
  have he : (Expr.var .u).compile .float = .ok field := rfl
  have hcolors : colors.compile .vec3 = .ok fun c => #v[c.along .u, c.along .v, c.along .u] := rfl
  have hpx : 299 < size.width := by decide
  have hpy : 1 < size.height := by decide
  have hbegin : r.begin = .ok opened := rfl
  have hsteady : ∀ q ∈ requests, q.isSteady = true := by simp [requests, Request.isSteady]
  obtain ⟨hrows, hcanvas, htiles⟩ := heights_agree he hpx hpy
  obtain ⟨rows, row, hrun, -, hrow, hplace⟩ := hrows colors _ hcolors
  obtain ⟨hdone, hcovered, hdelivered⟩ :=
    htiles Unit r opened () [] requests rfl hbegin (by simp) hsteady rfl rfl
  have hall : x.renderer.isDone = true := hdone.2 (by decide)
  obtain ⟨i, ⟨t, ht, hin⟩, -⟩ := hcovered hall
  exact ⟨he, hpx, hpy, ⟨rows, row, hrun, hrow, hplace⟩, (hcanvas Unit Canvas.new ()).1, hbegin,
    hall, i, t, ht, hdelivered i t ht hin⟩

end Relief
