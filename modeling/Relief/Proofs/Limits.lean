import Relief.Proofs.Previews

set_option autoImplicit false

/-! # Limits: how much of a frame a preview shows

The limit of a preview is kept by an observer. It counts the tiles that it is shown, and from the one
on that makes up the limit it cancels the job (`cancelled_showAll`). The job looks at its flag before
every tile, so the mosaic has got just as many tiles as the limit says, or all of them if there are
not so many (`run_of_limit`, `limit_shows`).

The observer acts after a tile and never before the first one. A limit of zero is therefore one of
one: the first tile of the frame is in the mosaic that is saved, and it is counted
(`limit_zero_shows_a_tile`). -/

namespace Relief

open TileRenderer (showAll)

/-- What is saved under the name of a PNG file is the image of the mosaic. -/
theorem Mosaic.save_png {m : Mosaic} (hwidth : m.size.width ≠ 0) (hheight : m.size.height ≠ 0)
    {fs : Files} {path : String} {place : FilePlace}
    (hpath : (Path.extension? path).bind ImageFormat.ofExtension? = some .png)
    (hplace : fs.create? path = .ok place) :
    m.save fs path = (.ok (), fs.put place (.image m.image)) := by
  obtain ⟨extension, hextension, hformat⟩ := Option.bind_eq_some_iff.1 hpath
  unfold save
  simp only [hextension, hformat, hplace, if_neg hwidth, if_neg hheight]
  rfl

namespace Command

/-- The options of a command line that can be followed. -/
def given? : Except UsageError Request → Option Given
  | .ok (.run given) => some given
  | .ok .help => none
  | .error _ => none

theorem eq_ok_of_given? {parsed : Except UsageError Request} {given : Given}
    (h : given? parsed = some given) : parsed = .ok (.run given) := by
  cases parsed with
  | error err => cases h
  | ok request =>
      cases request with
      | help => cases h
      | run given' =>
          cases h
          rfl

namespace Preview

variable {p : Project} {field : Field Float32} {limit : Nat}

/-! ## The limit as an observer -/

theorem renderer_of_limit (hfield : p.heightExpr.compile .float = .ok field) (limit : Nat) :
    renderer p (some limit) = .ok ⟨p.size, p.sampling, [collect, countTriangles, limitTo limit],
      none, some field⟩ := by
  simp only [renderer, TileRenderer.setHeight, hfield]
  rfl

/-- The limit leaves the mosaic alone. -/
theorem sees_mosaic_of_limit (limit : Nat) :
    Session.Sees Progress.mosaic (fun t m => m.add t)
      [collect, countTriangles, limitTo limit] :=
  sees_mosaic.append fun _ _ => rfl

/-- What the limit keeps: the number of tiles, and the flag. -/
theorem sees_limit (limit : Nat) :
    Session.Sees (fun s : Progress => (s.seen, s.cancelled))
      (fun _ kept => (kept.1 + 1, kept.2 || decide (limit ≤ kept.1 + 1)))
      [collect, countTriangles, limitTo limit] := by
  intro t s
  obtain ⟨n, hcount⟩ := exists_countTriangles t (collect t s)
  simp only [TileRenderer.notify, List.foldl_cons, List.foldl_nil, hcount]
  rfl

/-- After so many tiles the flag says whether they make up the limit. -/
theorem foldl_limit (limit : Nat) (tiles : List Tile) :
    tiles.foldl (fun kept _ => (kept.1 + 1, kept.2 || decide (limit ≤ kept.1 + 1))) (0, false)
      = (tiles.length, decide (max limit 1 ≤ tiles.length)) := by
  induction tiles using List.reverseRecOn with
  | nil => simp
  | append_singleton tiles t ih =>
      rw [List.foldl_append, ih, List.length_append, List.length_singleton, List.foldl_cons,
        List.foldl_nil, ← Bool.decide_or]
      congr 2
      simp only [eq_iff_iff]
      omega

/-- **The flag is found set when the limit is made up**, and not before the first tile. -/
theorem cancelled_showAll (r : TileRenderer Progress) (field : Field Float32) (limit : Nat)
    (m : Mosaic) (k : Nat) :
    (showAll [collect, countTriangles, limitTo limit] (r.firstTiles field k)
      ⟨m, 0, 0, false⟩).cancelled = decide (max limit 1 ≤ k) := by
  have hview := TileRenderer.view_showAll (sees_limit limit) (r.firstTiles field k)
    ⟨m, 0, 0, false⟩
  rw [foldl_limit, TileRenderer.length_firstTiles] at hview
  exact congrArg Prod.snd hview

/-! ## A run with a limit -/

/-- How a run ends whose limit is made up by its first `k` tiles. -/
def limitedResult (k total : Nat) : Except JobFailure RenderSummary :=
  if k ≤ total then .error (.error (.cancelled k total)) else .ok ⟨total, total⟩

/-- A run with a limit has shown the tiles that make up the limit, and all of them if it is not
    made up. -/
theorem run_of_limit {r : TileRenderer Progress} (hidle : r.frame = none)
    (hfield : r.height = some field)
    (hobservers : r.observers = [collect, countTriangles, limitTo limit]) {tick : Nat}
    (htick : 0 < tick) (m : Mosaic) :
    let total := Frame.cellCount r.size
    let ended := RenderJob.run ⟨tick⟩ Progress.cancelled r ⟨m, 0, 0, false⟩
    ended.result = limitedResult (max limit 1) total ∧
      ended.state.mosaic = (r.firstTiles field (min (max limit 1) total)).foldl Mosaic.add m := by
  intro total ended
  have hflag (k : Nat) : (showAll r.observers (r.firstTiles field k)
      ⟨m, 0, 0, false⟩).cancelled = decide (max limit 1 ≤ k) := by
    rw [hobservers]
    exact cancelled_showAll r field limit m k
  have hmosaic (k : Nat) : (showAll r.observers (r.firstTiles field k) ⟨m, 0, 0, false⟩).mosaic
      = (r.firstTiles field k).foldl Mosaic.add m := by
    rw [hobservers]
    exact TileRenderer.view_showAll (sees_mosaic_of_limit limit) _ _
  have htick' : 0 < (RenderJob.mk tick).tick := htick
  rw [limitedResult]
  by_cases hreached : max limit 1 ≤ total
  · have hrun := RenderJob.run_of_seen htick' hidle hfield hreached
      ((hflag _).trans (decide_eq_true (Nat.le_refl _)))
      fun j hj => (hflag j).trans (decide_eq_false (Nat.not_le_of_lt hj))
    rw [if_pos hreached, Nat.min_eq_left hreached, ← hmosaic]
    exact ⟨congrArg RenderJob.Ended.result hrun, congrArg (·.state.mosaic) hrun⟩
  · have hrun := RenderJob.run_of_unseen htick' hidle hfield
      fun j hj => (hflag j).trans (decide_eq_false (by omega))
    rw [if_neg hreached, Nat.min_eq_right (by omega), ← hmosaic]
    exact ⟨congrArg RenderJob.Ended.result hrun, congrArg (·.state.mosaic) hrun⟩

/-- The mosaic of the first tiles of a frame. -/
theorem mosaic_firstTiles {r : TileRenderer Progress} (field : Field Float32) (range : HeightRange)
    (hwidth : r.size.width < UInt32.size) (hheight : r.size.height < UInt32.size) {k : Nat}
    (hk : k ≤ Frame.cellCount r.size) :
    let m := (r.firstTiles field k).foldl Mosaic.add (Mosaic.new r.size range)
    m.size = r.size ∧ m.tiles = k ∧
      ∀ x y, x < r.size.width → y < r.size.height →
        m.pixel? x y = some (if Frame.cellOf r.size x y < k
          then range.quantize (field (r.sampling.coordsOf r.size x y)) else 0) := by
  intro m
  have hwrapped : r.size.wrapped = r.size := Size.wrapped_of_lt hwidth hheight
  have hm : m = ⟨r.size, range, (r.firstWrites field range k).foldl (Mosaic.Write.apply r.size)
      (Array.replicate r.size.area 0), k⟩ := by
    have hadd := Mosaic.foldl_add (Mosaic.new r.size range) (r.firstTiles field k)
    simp only [Mosaic.new, hwrapped, TileRenderer.length_firstTiles, Nat.zero_add] at hadd
    simp only [m, Mosaic.new, hwrapped, hadd]
    rfl
  refine ⟨by rw [hm], by rw [hm], fun x y hx hy => ?_⟩
  rw [hm, Mosaic.pixel?, if_pos ⟨hx, hy⟩]
  refine (TileRenderer.getElem?_foldl_firstWrites_le hwidth hheight hk Array.size_replicate hx
    hy).trans ?_
  have hplace : y * r.size.width + x < r.size.area := rowMajor_lt hx hy
  rw [Array.getElem?_replicate, if_pos hplace]
  split <;> rfl

/-! ## The command -/

/-- A preview whose job finishes or is cancelled saves its mosaic. -/
theorem run_of_limitedResult {arguments : List String} {given : Given} {fs : Files}
    (hparse : parse options [] arguments = .ok (.run given)) (hproject : project given fs = .ok p)
    (hrange : p.validate = .ok ()) {r : TileRenderer Progress}
    (hrenderer : renderer p (given.size? "max-tiles") = .ok r)
    {ended : RenderJob.Ended Progress}
    (hended : ended = RenderJob.run ⟨(given.size? "tick-ms").getD RenderJob.standardTick⟩
      Progress.cancelled r ⟨Mosaic.new p.size p.range, 0, 0, false⟩)
    {k total : Nat} (hresult : ended.result = limitedResult k total)
    (hwidth : ended.state.mosaic.size.width ≠ 0) (hheight : ended.state.mosaic.size.height ≠ 0)
    {place : FilePlace}
    (hpath : (Path.extension? (out given)).bind ImageFormat.ofExtension? = some .png)
    (hplace : fs.create? (out given) = .ok place) :
    run arguments fs = ⟨0, "", success (out given) ended.state.mosaic,
      fs.put place (.image ended.state.mosaic.image)⟩ := by
  have hsaved : saveMosaic ended.state.mosaic (out given) fs = ⟨0, "",
      success (out given) ended.state.mosaic, fs.put place (.image ended.state.mosaic.image)⟩ := by
    unfold saveMosaic
    rw [Mosaic.save_png hwidth hheight hpath hplace]
  unfold run follow render
  simp only [hparse, hproject, hrange, hrenderer, ← hended, hresult, limitedResult]
  by_cases hreached : k ≤ total
  · rw [if_pos hreached]
    exact hsaved
  · rw [if_neg hreached]
    exact hsaved

/-- **A limited preview shows as many tiles as its limit says**, the first ones of its raster row by
    row, and all of them if there are not so many; a limit of zero counts as one. In the mosaic that
    is saved these tiles have the samples of their heights, and everything else is black. -/
theorem limit_shows {given : Given} {fs : Files} {p : Project} {limit : Nat}
    (hproject : project given fs = .ok p) (hrange : p.validate = .ok ())
    (hwidth : 1 ≤ p.size.width ∧ p.size.width < UInt32.size)
    (hheight : 1 ≤ p.size.height ∧ p.size.height < UInt32.size)
    (htick : 0 < (given.size? "tick-ms").getD RenderJob.standardTick)
    (hlimit : given.size? "max-tiles" = some limit) :
    let columns := p.size.width ⌈/⌉ 256
    let total := columns * (p.size.height ⌈/⌉ 256)
    let k := min (max limit 1) total
    let blank := Mosaic.new p.size p.range
    ∃ (r : TileRenderer Progress) (field : Field Float32),
      renderer p (some limit) = .ok r ∧ p.heightExpr.compile .float = .ok field ∧
      let ended := RenderJob.run ⟨(given.size? "tick-ms").getD RenderJob.standardTick⟩
        Progress.cancelled r ⟨blank, 0, 0, false⟩
      let m := ended.state.mosaic
      (ended.result = if max limit 1 ≤ total
        then .error (.error (.cancelled (max limit 1) total)) else .ok ⟨total, total⟩) ∧
      m = (r.firstTiles field k).foldl Mosaic.add blank ∧
      (∀ i, (r.tileAt field i).offsetX = 256 * (i % columns) ∧
        (r.tileAt field i).offsetY = 256 * (i / columns)) ∧
      m.size = p.size ∧ m.tiles = k ∧
      (∀ x y, x < p.size.width → y < p.size.height →
        m.pixel? x y = some (if y / 256 * columns + x / 256 < k
          then p.range.quantize (field (p.sampling.coordsOf p.size x y)) else 0)) ∧
      ∀ arguments place, parse options [] arguments = .ok (.run given) →
        (Path.extension? (out given)).bind ImageFormat.ofExtension? = some .png →
        fs.create? (out given) = .ok place →
        run arguments fs
          = ⟨0, "", success (out given) m, fs.put place (.image m.image)⟩ := by
  intro columns total k blank
  obtain ⟨⟨field, hfield⟩, -⟩ := p.exprs_compile
  have hrenderer := renderer_of_limit hfield limit
  let r : TileRenderer Progress :=
    ⟨p.size, p.sampling, [collect, countTriangles, limitTo limit], none, some field⟩
  have htotal : Frame.cellCount r.size = total := Frame.cellCount_eq_ceilDiv p.size
  have hcolumns : Frame.tilesAlong p.size.width = columns := Frame.tilesAlong_eq_ceilDiv _
  have hk : k ≤ Frame.cellCount r.size := htotal ▸ Nat.min_le_right _ _
  refine ⟨r, field, hrenderer, hfield, ?_⟩
  intro ended m
  obtain ⟨hresult, hm⟩ := run_of_limit (r := r) rfl rfl rfl htick blank
  rw [htotal] at hresult hm
  obtain ⟨hsize, htiles, hpixels⟩ :=
    mosaic_firstTiles (r := r) field p.range hwidth.2 hheight.2 hk
  have hshown : (r.firstTiles field k).foldl Mosaic.add blank = m := hm.symm
  rw [hshown] at hsize htiles hpixels
  refine ⟨hresult, hm, fun i => Frame.offset_cell p.size i, hsize, htiles, fun x y hx hy => ?_,
    fun arguments place hparse hpath hplace => ?_⟩
  · rw [hpixels x y hx hy, Frame.cellOf, hcolumns]
    rfl
  · refine run_of_limitedResult hparse hproject hrange (by rw [hlimit]; exact hrenderer) rfl hresult
      ?_ ?_ hpath hplace
    · show m.size.width ≠ 0
      rw [hsize]
      exact Nat.ne_of_gt hwidth.1
    · show m.size.height ≠ 0
      rw [hsize]
      exact Nat.ne_of_gt hheight.1

/-- Three of the four tiles of a raster, in an empty directory. The second tile of the second row is
    not in the mosaic. -/
theorem limit_shows_three :
    let arguments := ["--width", "300", "--height", "300", "--max-tiles", "3"]
    let given : Given := [("max-tiles", "3"), ("height", "300"), ("width", "300")]
    let p : Project := { Project.standard with size := ⟨300, 300⟩ }
    parse options [] arguments = .ok (.run given) ∧ project given Files.empty = .ok p ∧
    p.validate = .ok () ∧ (1 ≤ p.size.width ∧ p.size.width < UInt32.size) ∧
    (1 ≤ p.size.height ∧ p.size.height < UInt32.size) ∧
    0 < (given.size? "tick-ms").getD RenderJob.standardTick ∧
    given.size? "max-tiles" = some 3 ∧
    ∃ m : Mosaic, m.tiles = 3 ∧ m.pixel? 299 299 = some 0 ∧
      run arguments Files.empty = ⟨0, "", success "preview.png" m,
        Files.empty.put ["preview.png"] (.image m.image)⟩ := by
  intro arguments given p
  have hparse : parse options [] arguments = .ok (.run given) :=
    eq_ok_of_given? (by decide +kernel)
  have hproject : project given Files.empty = .ok p := rfl
  have hrange : p.validate = .ok () := HeightRange.validate_unit
  have hsize : 1 ≤ 300 ∧ 300 < UInt32.size := by decide
  have htick : 0 < (given.size? "tick-ms").getD RenderJob.standardTick := by decide +kernel
  have hlimit : given.size? "max-tiles" = some 3 := by decide +kernel
  have hout : out given = "preview.png" := rfl
  have hplace : Files.empty.create? (out given) = .ok ["preview.png"] := by
    rw [hout]
    rfl
  have hsides : 300 ⌈/⌉ 256 = 2 := by simp [Nat.ceilDiv_eq_add_pred_div]
  have hthree : min (max 3 1) ((300 ⌈/⌉ 256) * (300 ⌈/⌉ 256)) = 3 := by
    rw [hsides]
    rfl
  have hlast : ¬ 299 / 256 * (300 ⌈/⌉ 256) + 299 / 256
      < min (max 3 1) ((300 ⌈/⌉ 256) * (300 ⌈/⌉ 256)) := by
    rw [hthree, hsides]
    decide
  obtain ⟨r, field, -, -, -, -, -, -, htiles, hpixels, hrun⟩ :=
    limit_shows hproject hrange hsize hsize htick hlimit
  have hcorner := hpixels 299 299 (by decide) (by decide)
  exact ⟨hparse, hproject, hrange, hsize, hsize, htick, hlimit, _, htiles.trans hthree,
    hcorner.trans (congrArg some (if_neg hlast)),
    hrun arguments ["preview.png"] hparse (by decide +kernel) hplace⟩

/-- **A limit of zero shows a tile.** The one tile of a single pixel is rendered, counted and
    saved. -/
theorem limit_zero_shows_a_tile :
    let arguments := ["--width", "1", "--height", "1", "--max-tiles", "0"]
    let given : Given := [("max-tiles", "0"), ("height", "1"), ("width", "1")]
    let p : Project := { Project.standard with size := ⟨1, 1⟩ }
    parse options [] arguments = .ok (.run given) ∧ project given Files.empty = .ok p ∧
    p.validate = .ok () ∧ given.size? "max-tiles" = some 0 ∧
    ∃ m : Mosaic, m.tiles ≠ min 0 (Frame.cellCount p.size) ∧
      run arguments Files.empty = ⟨0, "", success "preview.png" m,
        Files.empty.put ["preview.png"] (.image m.image)⟩ := by
  intro arguments given p
  have hparse : parse options [] arguments = .ok (.run given) :=
    eq_ok_of_given? (by decide +kernel)
  have hproject : project given Files.empty = .ok p := rfl
  have hrange : p.validate = .ok () := HeightRange.validate_unit
  have hlimit : given.size? "max-tiles" = some 0 := by decide +kernel
  obtain ⟨⟨field, hfield⟩, -⟩ := p.exprs_compile
  obtain ⟨r, hr, hsize, hidle, hheight, hobservers⟩ : ∃ r, renderer p (some 0) = .ok r ∧
      r.size = p.size ∧ r.frame = none ∧ r.height = some field ∧
      r.observers = [collect, countTriangles, limitTo 0] :=
    ⟨_, renderer_of_limit hfield 0, rfl, rfl, rfl, rfl⟩
  have hcells : Frame.cellCount r.size = 1 := by
    rw [hsize]
    decide
  have htick : 0 < (given.size? "tick-ms").getD RenderJob.standardTick := by decide +kernel
  have hout : out given = "preview.png" := rfl
  have hplace : Files.empty.create? (out given) = .ok ["preview.png"] := by
    rw [hout]
    rfl
  obtain ⟨hresult, hmosaic⟩ := run_of_limit hidle hheight hobservers htick
    (Mosaic.new p.size p.range)
  obtain ⟨hshown, htiles, -⟩ := mosaic_firstTiles (r := r) (k := min (max 0 1) 1) field p.range
    (by rw [hsize]; decide) (by rw [hsize]; decide) (by rw [hcells]; decide)
  rw [hcells] at hresult hmosaic
  rw [hsize, ← hmosaic] at hshown htiles
  refine ⟨hparse, hproject, hrange, hlimit, _, ?_, run_of_limitedResult hparse hproject hrange
    (by rw [hlimit]; exact hr) rfl hresult ?_ ?_ (by decide +kernel) hplace⟩
  · rw [htiles]
    decide
  · rw [hshown]
    decide
  · rw [hshown]
    decide

end Preview

end Command

end Relief
