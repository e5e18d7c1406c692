import Relief.Render.Frame
import Relief.Expr.Lowering

set_option autoImplicit false

/-! # Tiled rendering: a frame spread over many calls

A tile renderer draws a height field one tile per call, so that its caller can do other things in
between. Whoever wants the tiles registers an observer. Observers act on a state `σ` that they
share with the caller; a renderer only hands each tile to them, in the order of their registration.
A failing operation leaves the renderer and the shared state as they were. An observer has no way to
fail here: it takes the tile and returns. -/

namespace Relief

/-- What an observer does to the shared state on seeing a tile, from which it returns. -/
abbrev TileObserver (σ : Type) := Tile → σ → σ

/-- A progressive renderer of heights. -/
structure TileRenderer (σ : Type) where
  /-- The raster of the next frame; an open frame keeps its own. -/
  size : Size
  sampling : Sampling
  observers : List (TileObserver σ)
  frame : Option Frame
  height : Option (Field Float32)

namespace TileRenderer

variable {σ : Type}

/-- A renderer of an empty raster, idle and without a height field. -/
def new : TileRenderer σ where
  size := ⟨0, 0⟩
  sampling := .perTile
  observers := []
  frame := none
  height := none

/-! ## Settings -/

/-- Registers an observer after the ones already there. -/
def observe (r : TileRenderer σ) (observer : TileObserver σ) : TileRenderer σ :=
  { r with observers := r.observers ++ [observer] }

/-- Sets the raster of the next frame. -/
def setSize (r : TileRenderer σ) (size : Size) : TileRenderer σ := { r with size := size }

/-- Sets how the tiles from here on are sampled. -/
def setSampling (r : TileRenderer σ) (sampling : Sampling) : TileRenderer σ :=
  { r with sampling := sampling }

/-- Takes an expression as the height field of the tiles from here on. One that is not a number
    is refused, and the field in place stays. -/
def setHeight (r : TileRenderer σ) (e : Expr) : Except RenderError (TileRenderer σ) :=
  match e.compile .float with
  | .ok field => .ok { r with height := some field }
  | .error err => .error err

/-! ## Progress -/

/-- The number of tiles left in the open frame, none when idle. -/
def remaining (r : TileRenderer σ) : Nat :=
  match r.frame with
  | some f => f.remaining
  | none => 0

/-- Whether no tile is left, which is also so when idle. -/
def isDone (r : TileRenderer σ) : Bool := r.remaining == 0

/-! ## A frame -/

/-- Opens a frame at the current raster, unless one is open. -/
def begin (r : TileRenderer σ) : Except RenderError (TileRenderer σ) :=
  match r.frame with
  | some _ => .error .frameInProgress
  | none => .ok { r with frame := some (Frame.start r.size) }

/-- Closes the open frame, whether or not all of it was rendered. -/
def finish (r : TileRenderer σ) : Except RenderError (TileRenderer σ) :=
  match r.frame with
  | some _ => .ok { r with frame := none }
  | none => .error .noFrame

/-- Where the sample at column `x` of row `y` of a tile lies in the unit square. -/
def coordsAt (sampling : Sampling) (size : Size) (t : Tile) (x y : Nat) : Coords :=
  match sampling with
  | .perTile => Coords.ofPixel x y Tile.edge Tile.edge
  | .raster => Coords.ofPixel (t.offsetX + x) (t.offsetY + y) size.width size.height

/-- Where the `i`-th sample of a tile lies in the unit square. -/
def coords (sampling : Sampling) (size : Size) (t : Tile) (i : Nat) : Coords :=
  coordsAt sampling size t (i % t.width) (i / t.width)

/-- Fills a tile with the heights of a field, and black. -/
def render (field : Field Float32) (sampling : Sampling) (size : Size) (t : Tile) : Tile :=
  t.mapSamples fun i _ => Sample.ofHeight (field (coords sampling size t i))

/-- Shows a tile to every observer in turn. -/
def notify (observers : List (TileObserver σ)) (t : Tile) (s : σ) : σ :=
  observers.foldl (fun s observer => observer t s) s

/-- Renders the next tile of the open frame: the tile, and the renderer that has it done. -/
def renderNext (r : TileRenderer σ) : Except RenderError (Tile × TileRenderer σ) :=
  match r.frame with
  | none => .error .noFrame
  | some f =>
    match r.height with
    | none => .error (.missingExpr .height)
    | some field =>
      if f.remaining = 0 then .error .frameComplete
      else .ok (render field r.sampling f.size f.nextTile, { r with frame := some f.advance })

/-- Renders the next tile of the open frame and shows it to the observers. -/
def poll (r : TileRenderer σ) (s : σ) : Except RenderError (TileRenderer σ × σ) :=
  match r.renderNext with
  | .ok (tile, r) => .ok (r, notify r.observers tile s)
  | .error err => .error err

/-! ## What these operations do -/

/-- A rendered tile shows the field at every one of its samples. -/
theorem heightAt?_render (field : Field Float32) (sampling : Sampling) (size : Size) (t : Tile)
    {x y : Nat} (hx : x < t.width) (hy : y < t.height) :
    (render field sampling size t).heightAt? x y
      = some (field (coordsAt sampling size t x y)) := by
  obtain ⟨s, hs⟩ := t.exists_stored (t.index_lt_area hx hy)
  obtain ⟨hcolumn, hrow⟩ := (rowMajor_iff hx).2 (rfl : y * t.width + x = _)
  rw [render, Tile.heightAt?_mapSamples t _ hx hy hs, coords, hcolumn, hrow]
  rfl

/-- A frame is opened at the current raster, and only when none is open. -/
theorem begin_eq_ok_iff {r r' : TileRenderer σ} :
    r.begin = .ok r' ↔ r.frame = none ∧ r' = { r with frame := some (Frame.start r.size) } := by
  unfold begin
  cases r.frame with
  | some f => simp
  | none => simp [eq_comm]

/-- When the next tile can be rendered, and what is left then. -/
theorem renderNext_eq_ok_iff {r r' : TileRenderer σ} {t : Tile} :
    r.renderNext = .ok (t, r') ↔
      ∃ f field, r.frame = some f ∧ r.height = some field ∧ f.remaining ≠ 0 ∧
        t = render field r.sampling f.size f.nextTile ∧
        r' = { r with frame := some f.advance } := by
  unfold renderNext
  constructor
  · intro h
    split at h
    · cases h
    · next f hf =>
      split at h
      · cases h
      · next field hfield =>
        split at h
        · cases h
        · next hleft =>
          cases h
          exact ⟨f, field, hf, hfield, hleft, rfl, rfl⟩
  · rintro ⟨f, field, hf, hfield, hleft, rfl, rfl⟩
    simp only [hf, hfield, if_neg hleft]

/-- A poll shows the rendered tile to every observer. -/
theorem poll_eq_ok_iff {r r' : TileRenderer σ} {s s' : σ} :
    r.poll s = .ok (r', s') ↔
      ∃ t, r.renderNext = .ok (t, r') ∧ s' = notify r'.observers t s := by
  unfold poll
  constructor
  · intro h
    split at h
    · next t r₁ hnext =>
      cases h
      exact ⟨t, hnext, rfl⟩
    · cases h
  · rintro ⟨t, hnext, rfl⟩
    simp only [hnext]

end TileRenderer

end Relief
