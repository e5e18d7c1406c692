import Relief.Proofs.Policies
import Relief.Proofs.Semantics

set_option autoImplicit false

/-! # Axes: an unused coordinate does not show in a picture

A field reads its point through the coordinates that its expression mentions and in no other way
(`Evaluates.congr`), so a field of one axis is the same all along the other. The centre of a pixel
has as coordinate along an axis what its place and the length of the side on that axis make of it,
and nothing of the other axis (`Coords.along_ofPixel`). Put together, every renderer shows such a
field as the copies of one line (`shows_one_line`); and a field of no axis is flat.

What the renderers show is said for any field first (`showsHeights`, `showsColors`). They number the
pixels by rows, by places of the raster and by places of a tile, and it is here that a mistaken side
or coordinate would have to appear. -/

namespace Relief

/-! ## The two axes -/

namespace Axis

/-- The axis that is not this one. -/
def other : Axis → Axis
  | .u => .v
  | .v => .u

/-- What belongs to an axis, of something that belongs to `u` and something that belongs to `v`. -/
def pick {α : Type} (axis : Axis) (ofU ofV : α) : α :=
  match axis with
  | .u => ofU
  | .v => ofV

/-- An axis is this one or the other. -/
theorem eq_of_ne_other {axis b : Axis} (h : b ≠ axis.other) : b = axis := by
  cases axis <;> cases b <;> first | rfl | exact absurd rfl h

end Axis

namespace Coords

/-- The centre of the `i`-th of `n` pixels in a line of length one. -/
def centre (i n : Nat) : Float32 := (Binary32.ofSize i + Binary32.half) / Binary32.ofSize n

/-- The point that has the same coordinate along both axes. -/
def diagonal (t : Float32) : Coords := ⟨t, t⟩

@[simp]
theorem along_diagonal (t : Float32) (axis : Axis) : (diagonal t).along axis = t := by
  cases axis <;> rfl

/-- Along an axis a pixel lies where its place on that axis puts it. -/
theorem along_ofPixel (axis : Axis) (x y width height : Nat) :
    (ofPixel x y width height).along axis = centre (axis.pick x y) (axis.pick width height) := by
  cases axis <;> rfl

end Coords

/-! ## What an expression mentions -/

namespace Expr

/-- The axes whose coordinates an expression mentions. -/
def axes : Expr → List Axis
  | var axis => [axis]
  | int _ | float _ => []
  | toFloat a | toInt a | unary _ a => a.axes
  | binary _ a b | vec2 a b => a.axes ++ b.axes
  | vec3 a b d => a.axes ++ (b.axes ++ d.axes)
  | vec4 a b d e => a.axes ++ (b.axes ++ (d.axes ++ e.axes))

section

variable {trig : Trigonometry} {c c' : Coords} {e : Expr} {value : Value}

/-- An expression has the same value wherever the coordinates that it mentions are the same. -/
theorem Evaluates.congr (h : e.Evaluates trig c value)
    (hc : ∀ axis ∈ e.axes, c.along axis = c'.along axis) : e.Evaluates trig c' value := by
  induction h with
  | var axis =>
      rw [hc axis (List.mem_cons_self ..)]
      exact .var axis
  | int n => exact .int n
  | float x => exact .float x
  | toFloat _ ih => exact .toFloat (ih hc)
  | toInt _ ih => exact .toInt (ih hc)
  | unary op _ ih => exact .unary op (ih hc)
  | binary op _ _ iha ihb =>
      obtain ⟨ha, hb⟩ := List.forall_mem_append.1 hc
      exact .binary op (iha ha) (ihb hb)
  | vec2 _ _ iha ihb =>
      obtain ⟨ha, hb⟩ := List.forall_mem_append.1 hc
      exact .vec2 (iha ha) (ihb hb)
  | vec3 _ _ _ iha ihb ihd =>
      obtain ⟨ha, hrest⟩ := List.forall_mem_append.1 hc
      obtain ⟨hb, hd⟩ := List.forall_mem_append.1 hrest
      exact .vec3 (iha ha) (ihb hb) (ihd hd)
  | vec4 _ _ _ _ iha ihb ihd ihe =>
      obtain ⟨ha, hrest⟩ := List.forall_mem_append.1 hc
      obtain ⟨hb, hrest⟩ := List.forall_mem_append.1 hrest
      obtain ⟨hd, he⟩ := List.forall_mem_append.1 hrest
      exact .vec4 (iha ha) (ihb hb) (ihd hd) (ihe he)

end

end Expr

theorem Target.toValue_injective (target : Target) : Function.Injective target.toValue := by
  intro a b h
  cases target <;> cases h <;> rfl

namespace Expr

variable {e : Expr} {target : Target} {field : Field target.Value}

/-- **A field reads the coordinates that its expression mentions**, and no others. -/
theorem field_congr (h : e.compile target = .ok field) {c c' : Coords}
    (hc : ∀ axis ∈ e.axes, c.along axis = c'.along axis) : field c = field c' := by
  have heval := (evaluates_iff_of_compile h c _).2 rfl
  exact target.toValue_injective ((evaluates_iff_of_compile h c' _).1 (heval.congr hc))

/-- Where only one axis is mentioned, only the coordinate along it matters. -/
theorem field_congr_along (h : e.compile target = .ok field) {axis : Axis}
    (hother : axis.other ∉ e.axes) {c c' : Coords} (hc : c.along axis = c'.along axis) :
    field c = field c' := by
  refine field_congr h fun b hb => ?_
  rw [Axis.eq_of_ne_other fun hsame => hother (hsame ▸ hb)]
  exact hc

/-- A field of one axis at a pixel. -/
theorem field_ofPixel (h : e.compile target = .ok field) {axis : Axis}
    (hother : axis.other ∉ e.axes) (x y width height : Nat) :
    field (Coords.ofPixel x y width height)
      = field (.diagonal (Coords.centre (axis.pick x y) (axis.pick width height))) := by
  refine field_congr_along h hother ?_
  rw [Coords.along_ofPixel, Coords.along_diagonal]

end Expr

/-! ## What the renderers show -/

/-- What the three renderers show of a height field: `atPixel` is the height at a place of a raster,
    and `inTile` the one at a place of a tile that samples the unit square by itself. -/
structure ShowsHeights (field : Field Float32) (atPixel : Size → Nat → Nat → Float32)
    (inTile : Nat → Nat → Float32) : Prop where
  rows : ∀ (r : ScanlineRenderer) (color : Field Color), r.height = some field →
    r.color = some color → ∃ rows, r.execute (fun row rows => rows ++ [row]) [] = .ok rows ∧
      rows.length = r.size.height ∧
      ∀ x y, x < r.size.width → y < r.size.height → ∃ row, rows[y]? = some row ∧
        row[x * 4]? = some (atPixel r.size x y)
  map : ∀ (σ : Type) (s s' : σ) (edits : List (Canvas.Call σ)),
    let c := ((Easel.start s).follow edits).canvas
    c.heightField = field → ∀ x y, x < c.size.width → y < c.size.height →
      (c.computeHeights s').1.heights[y * c.size.width + x]? = some (atPixel c.size x y)
  tiles : ∀ (σ : Type) (r : TileRenderer σ) (f : Frame) (s : σ), r.height = some field →
    r.frame = some f → f.remaining ≠ 0 →
      let t := TileRenderer.render field r.sampling f.size f.nextTile
      r.poll s = .ok ({ r with frame := some f.advance }, TileRenderer.notify r.observers t s) ∧
      ∀ x y, x < t.width → y < t.height →
        (r.sampling = .raster →
          t.heightAt? x y = some (atPixel f.size (t.offsetX + x) (t.offsetY + y))) ∧
        (r.sampling = .perTile → t.heightAt? x y = some (inTile x y))

/-- What the two renderers of colours show of a colour field. -/
structure ShowsColors (color : Field Color) (atPixel : Size → Nat → Nat → Color) : Prop where
  rows : ∀ (r : ScanlineRenderer) (field : Field Float32), r.height = some field →
    r.color = some color → ∃ rows, r.execute (fun row rows => rows ++ [row]) [] = .ok rows ∧
      rows.length = r.size.height ∧
      ∀ x y, x < r.size.width → y < r.size.height → ∃ row, rows[y]? = some row ∧
        ∀ j : Fin 3, row[x * 4 + (j.val + 1)]?
          = some (Pixel.scale ((atPixel r.size x y).get j))
  surface : ∀ (σ : Type) (s : σ) (edits : List (Canvas.Call σ)),
    let c := ((Easel.start s).follow edits).canvas
    c.colorField = color → ∀ x y, x < c.size.width → y < c.size.height →
      c.computeSurface.surface[y * c.size.width + x]? = some (Rgb.ofColor (atPixel c.size x y))

section

variable {field : Field Float32} {color : Field Color}

/-- The rows that a renderer with both fields pushes. -/
theorem ScanlineRenderer.execute_collect {r : ScanlineRenderer} (hheight : r.height = some field)
    (hcolor : r.color = some color) :
    ∃ rows, r.execute (fun row rows => rows ++ [row]) [] = .ok rows ∧
      rows.length = r.size.height ∧
      ∀ y, y < r.size.height → rows[y]? = some (row field color r.size y) := by
  refine ⟨(List.range r.size.height).map (row field color r.size), ?_, ?_, fun y hy => ?_⟩
  · rw [execute_eq_ok_foldl hheight hcolor, foldl_collect_rows]
  · rw [List.length_map, List.length_range]
  · rw [List.getElem?_map, List.getElem?_range hy]
    rfl

/-- A rendered tile, its samples placed as its sampling says. -/
theorem TileRenderer.heightAt?_render_sampling (field : Field Float32) (sampling : Sampling)
    (size : Size) (u : Tile) {x y : Nat} :
    let t := render field sampling size u
    x < t.width → y < t.height →
      (sampling = .raster → t.heightAt? x y
        = some (field (Coords.ofPixel (t.offsetX + x) (t.offsetY + y) size.width size.height))) ∧
      (sampling = .perTile →
        t.heightAt? x y = some (field (Coords.ofPixel x y Tile.edge Tile.edge))) := by
  intro t hx hy
  have hshown := heightAt?_render field sampling size u hx hy
  constructor
  · rintro rfl
    exact hshown
  · rintro rfl
    exact hshown

/-- **Heights are those of the field at the centres of the pixels**, in every renderer. -/
theorem showsHeights (field : Field Float32) : ShowsHeights field
    (fun size x y => field (Coords.ofPixel x y size.width size.height))
    (fun x y => field (Coords.ofPixel x y Tile.edge Tile.edge)) where
  rows := by
    intro r color hheight hcolor
    obtain ⟨rows, hrun, hlength, hrows⟩ := ScanlineRenderer.execute_collect hheight hcolor
    exact ⟨rows, hrun, hlength, fun x y hx hy =>
      ⟨_, hrows y hy, ScanlineRenderer.getElem?_row_height hx y⟩⟩
  map := by
    intro σ s s' edits c hfield x y hx hy
    have hfitted : c.heights.size = c.size.area := (Easel.fitted_start s).follow edits .height
    rw [Canvas.getElem?_computeHeights hfitted s' hx hy, hfield]
  tiles := by
    intro σ r f s hheight hframe hleft t
    have hnext := TileRenderer.renderNext_eq_ok_iff.2 ⟨f, field, hframe, hheight, hleft, rfl, rfl⟩
    exact ⟨TileRenderer.poll_eq_ok_iff.2 ⟨t, hnext, rfl⟩, fun x y =>
      TileRenderer.heightAt?_render_sampling field r.sampling f.size f.nextTile⟩

/-- **Colours are those of the field at the centres of the pixels**, in both renderers. -/
theorem showsColors (color : Field Color) : ShowsColors color
    (fun size x y => color (Coords.ofPixel x y size.width size.height)) where
  rows := by
    intro r field hheight hcolor
    obtain ⟨rows, hrun, hlength, hrows⟩ := ScanlineRenderer.execute_collect hheight hcolor
    refine ⟨rows, hrun, hlength, fun x y hx hy => ⟨_, hrows y hy, fun j => ?_⟩⟩
    rw [ScanlineRenderer.getElem?_row hx y (Nat.succ_lt_succ j.isLt)]
    match j with
    | 0 => rfl
    | 1 => rfl
    | 2 => rfl
  surface := by
    intro σ s edits c hcolor x y hx hy
    have hcomputed : c.computeSurface.surface[y * c.size.width + x]?
        = some (Rgb.ofColor (c.colorField (Canvas.coords c.size (y * c.size.width + x)))) :=
      Easel.getElem?_compute ((Easel.fitted_start s).follow edits) .color (rowMajor_lt hx hy)
    obtain ⟨hcolumn, hrow⟩ := (rowMajor_iff hx).2 (rfl : y * c.size.width + x = _)
    rw [hcomputed, hcolor, Canvas.coords, hcolumn, hrow]

end

/-! ## One line -/

/-- **A coordinate that an expression does not mention does not show.**

Let an expression mention at most the coordinate along one axis. Its field takes equal values at any
two points with the same coordinate there. There is a line of values, by the place on that axis and
the length of the raster's side on it, of which every renderer shows copies: rows, maps, and tiles
that are sampled by the raster, whichever place and side the other axis has and whichever tile it
is. A tile that is sampled by itself shows the line of a full tile's edge, by the place in the tile.

An expression that mentions neither has one value at all points, and every renderer shows it at
every place of every raster and tile. -/
theorem shows_one_line (e : Expr) :
    (∀ axis : Axis, axis.other ∉ e.axes →
      (∀ (target : Target) (field : Field target.Value), e.compile target = .ok field →
        ∀ c c' : Coords, c.along axis = c'.along axis → field c = field c') ∧
      (∀ field, e.compile .float = .ok field → ∃ line : Nat → Nat → Float32,
        ShowsHeights field
          (fun size x y => line (axis.pick x y) (axis.pick size.width size.height))
          (fun x y => line (axis.pick x y) Tile.edge)) ∧
      ∀ color, e.compile .vec3 = .ok color → ∃ line : Nat → Nat → Color,
        ShowsColors color
          fun size x y => line (axis.pick x y) (axis.pick size.width size.height)) ∧
    (e.axes = [] →
      (∀ (target : Target) (field : Field target.Value), e.compile target = .ok field →
        ∃ value, ∀ c, field c = value) ∧
      (∀ field, e.compile .float = .ok field → ∃ height : Float32,
        ShowsHeights field (fun _ _ _ => height) (fun _ _ => height)) ∧
      ∀ color, e.compile .vec3 = .ok color → ∃ value : Color,
        ShowsColors color fun _ _ _ => value) := by
  constructor
  · intro axis hother
    refine ⟨fun target field h c c' hc => Expr.field_congr_along h hother hc,
      fun field h => ?_, fun color h => ?_⟩
    · refine ⟨fun i n => field (.diagonal (Coords.centre i n)), ?_⟩
      have hshows := showsHeights field
      simp only [Expr.field_ofPixel h hother] at hshows
      cases axis <;> exact hshows
    · refine ⟨fun i n => color (.diagonal (Coords.centre i n)), ?_⟩
      have hshows := showsColors color
      simp only [Expr.field_ofPixel h hother] at hshows
      exact hshows
  · intro hnone
    have hflat : ∀ {target : Target} {field : Field target.Value}, e.compile target = .ok field →
        ∀ c, field c = field (.diagonal Binary32.zero) := by
      intro target field h c
      refine Expr.field_congr h fun axis haxis => ?_
      rw [hnone] at haxis
      exact absurd haxis List.not_mem_nil
    refine ⟨fun target field h => ⟨_, hflat h⟩, fun field h => ?_, fun color h => ?_⟩
    · refine ⟨field (.diagonal Binary32.zero), ?_⟩
      have hshows := showsHeights field
      simp only [hflat h] at hshows
      exact hshows
    · refine ⟨color (.diagonal Binary32.zero), ?_⟩
      have hshows := showsColors color
      simp only [hflat h] at hshows
      exact hshows

/-- The terraces are a field of `u`. -/
example : Axis.u.other ∉ HeightPreset.terraces.expr.axes := by decide

end Relief
