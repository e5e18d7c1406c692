import Relief.Render.Canvas

set_option autoImplicit false

/-! # Canvases: what a canvas holds after any history

A canvas has two buffers, the height map and the surface, and they follow one law. A buffer is as
long as the raster is large at all times. Its place `i` holds what the latest computation of the
buffer wrote there, unless the raster was too small for the place at that computation or at some
time since; then, and before the first computation, it holds the blank value (`retains_computed`).

The law is stated for a `Layer`, so that it is proved once. What a single call does to a buffer is
said for each kind of call (`pixels_resize`, `pixels_compute`, `pixels_of_ne`); between two
computations only the resizes matter, and they either keep a place all the time (`getElem?_kept`) or
drop it once (`getElem?_dropped`). -/

namespace Relief

/-! ## The two buffers -/

/-- The values of a layer's buffer. -/
@[reducible] def Layer.Pixel : Layer → Type
  | .height => Float32
  | .color => Rgb

/-- What a place of a buffer holds before it is computed. -/
def Layer.blank : (layer : Layer) → layer.Pixel
  | .height => Binary32.zero
  | .color => Rgb.black

namespace Canvas

variable {σ : Type}

/-- The buffer of a layer. -/
def pixels (c : Canvas σ) : (layer : Layer) → Array layer.Pixel
  | .height => c.heights
  | .color => c.surface

/-- The value that a computation of the layer would write at place `i`. -/
def pixelAt (c : Canvas σ) : (layer : Layer) → Nat → layer.Pixel
  | .height => fun i => c.heightField (coords c.size i)
  | .color => fun i => Rgb.ofColor (c.colorField (coords c.size i))

theorem getElem?_fit {α : Type} {n i : Nat} (default : α) (values : Array α) (hi : i < n) :
    (fit n default values)[i]? = some (values[i]?.getD default) := by
  rw [fit, Array.getElem?_append, Array.size_extract]
  by_cases hold : i < values.size
  · rw [if_pos (by omega), Array.getElem?_extract, if_pos (by omega), Nat.zero_add,
      Array.getElem?_eq_getElem hold]
    rfl
  · rw [if_neg (by omega), Array.getElem?_replicate, if_pos (by omega),
      Array.getElem?_eq_none (Nat.le_of_not_lt hold)]
    rfl

/-- The field that a canvas shows for an expression: a default when there is none, or none that
    lowers. -/
def shown (target : Target) (default : Field target.Value) (e : Option Expr) :
    Field target.Value :=
  (e.bind fun e => e.lower target).getD default

/-- Setting a field changes the field only. -/
theorem setHeight_fst (c : Canvas σ) (e : Option Expr) :
    (c.setHeight e).1 = { c with heightField := shown .float flat e } := by
  cases e with
  | none => rfl
  | some e =>
      simp only [setHeight, Expr.compile, shown, Option.bind_some]
      cases e.lower .float <;> rfl

@[inherit_doc setHeight_fst]
theorem setColor_fst (c : Canvas σ) (e : Option Expr) :
    (c.setColor e).1 = { c with colorField := shown .vec3 dark e } := by
  cases e with
  | none => rfl
  | some e =>
      simp only [setColor, Expr.compile, shown, Option.bind_some]
      cases e.lower .vec3 <;> rfl

/-- What a caller can ask of a canvas. -/
inductive Call (σ : Type) where
  | observe (observer : MapObserver σ)
  | resize (size : Size)
  | setHeight (e : Option Expr)
  | setColor (e : Option Expr)
  | compute (layer : Layer)

/-- The observer that a call registers. -/
def Call.observer? : Call σ → Option (MapObserver σ)
  | observe observer => some observer
  | resize _ | setHeight _ | setColor _ | compute _ => none

end Canvas

/-- A canvas in use, with the state that it shares with its observers. -/
structure Easel (σ : Type) where
  canvas : Canvas σ
  state : σ

namespace Easel

open Canvas (Call)

variable {σ : Type}

/-- An empty canvas that is taken into use. -/
def start (s : σ) : Easel σ := ⟨Canvas.new, s⟩

/-- Follows one call. -/
def serve (x : Easel σ) : Call σ → Easel σ
  | .observe observer => { x with canvas := x.canvas.observe observer }
  | .resize size => { x with canvas := x.canvas.resize size }
  | .setHeight e => { x with canvas := (x.canvas.setHeight e).1 }
  | .setColor e => { x with canvas := (x.canvas.setColor e).1 }
  | .compute .height => ⟨(x.canvas.computeHeights x.state).1, (x.canvas.computeHeights x.state).2⟩
  | .compute .color => { x with canvas := x.canvas.computeSurface }

/-- Follows calls in turn. -/
def follow (x : Easel σ) (calls : List (Call σ)) : Easel σ := calls.foldl serve x

@[simp]
theorem follow_nil (x : Easel σ) : x.follow [] = x := rfl

@[simp]
theorem follow_cons (x : Easel σ) (q : Call σ) (rest : List (Call σ)) :
    x.follow (q :: rest) = (x.serve q).follow rest := rfl

theorem follow_append (x : Easel σ) (calls more : List (Call σ)) :
    x.follow (calls ++ more) = (x.follow calls).follow more :=
  List.foldl_append

/-! ## What one call does -/

section Buffers

variable {layer : Layer} {x : Easel σ} {q : Call σ}

@[simp]
theorem size_serve_resize (size : Size) : (x.serve (.resize size)).canvas.size = size := rfl

theorem size_serve_of_ne (hq : ∀ size, q ≠ .resize size) :
    (x.serve q).canvas.size = x.canvas.size := by
  cases q with
  | observe observer => rfl
  | resize size => exact absurd rfl (hq size)
  | setHeight e =>
      rw [serve, Canvas.setHeight_fst]
  | setColor e =>
      rw [serve, Canvas.setColor_fst]
  | compute layer => cases layer <;> rfl

theorem pixels_resize (size : Size) :
    (x.serve (.resize size)).canvas.pixels layer
      = Canvas.fit size.area layer.blank (x.canvas.pixels layer) := by
  cases layer <;> rfl

theorem pixels_compute :
    (x.serve (.compute layer)).canvas.pixels layer
      = (x.canvas.pixels layer).mapIdx fun i _ => x.canvas.pixelAt layer i := by
  cases layer <;> rfl

/-- No other call touches the buffer. -/
theorem pixels_of_ne (hresize : ∀ size, q ≠ .resize size) (hcompute : q ≠ .compute layer) :
    (x.serve q).canvas.pixels layer = x.canvas.pixels layer := by
  cases q with
  | observe observer => cases layer <;> rfl
  | resize size => exact absurd rfl (hresize size)
  | setHeight e =>
      rw [serve, Canvas.setHeight_fst]
      cases layer <;> rfl
  | setColor e =>
      rw [serve, Canvas.setColor_fst]
      cases layer <;> rfl
  | compute other =>
      cases layer <;> cases other <;> first | rfl | exact absurd rfl hcompute

/-! ## Lengths -/

/-- Whether both buffers are as long as the raster is large. -/
def Fitted (x : Easel σ) : Prop :=
  ∀ layer, (x.canvas.pixels layer).size = x.canvas.size.area

theorem fitted_start (s : σ) : (start s).Fitted := by
  intro layer
  cases layer <;> rfl

/-- Every call keeps the buffers as long as the raster. -/
theorem Fitted.serve (hx : x.Fitted) (q : Call σ) : (x.serve q).Fitted := by
  intro layer
  by_cases hresize : ∃ size, q = .resize size
  · obtain ⟨size, rfl⟩ := hresize
    rw [pixels_resize, Canvas.size_fit, size_serve_resize]
  · have hne : ∀ size, q ≠ .resize size := fun size h => hresize ⟨size, h⟩
    rw [size_serve_of_ne hne]
    by_cases hcompute : q = .compute layer
    · rw [hcompute, pixels_compute, Array.size_mapIdx]
      exact hx layer
    · rw [pixels_of_ne hne hcompute]
      exact hx layer

theorem Fitted.follow (hx : x.Fitted) (calls : List (Call σ)) : (x.follow calls).Fitted := by
  induction calls generalizing x with
  | nil => exact hx
  | cons q rest ih => exact ih (hx.serve q)

/-- What a computation writes at a place of the raster. -/
theorem getElem?_compute (hx : x.Fitted) (layer : Layer) {i : Nat}
    (hi : i < x.canvas.size.area) :
    ((x.serve (.compute layer)).canvas.pixels layer)[i]? = some (x.canvas.pixelAt layer i) := by
  have hplace : i < (x.canvas.pixels layer).size := by rwa [hx layer]
  rw [pixels_compute, Array.getElem?_mapIdx, Array.getElem?_eq_getElem hplace]
  rfl

/-! ## Between two computations -/

/-- A place that no resize drops stays as it is until the next computation. -/
theorem getElem?_kept (hx : x.Fitted) {calls : List (Call σ)} (hcalls : Call.compute layer ∉ calls)
    {i : Nat} (hi : i < x.canvas.size.area)
    (hkept : ∀ size, Call.resize size ∈ calls → i < size.area) :
    ((x.follow calls).canvas.pixels layer)[i]? = (x.canvas.pixels layer)[i]? := by
  induction calls generalizing x with
  | nil => rfl
  | cons q rest ih =>
      obtain ⟨hq, hrest⟩ := List.ne_and_not_mem_of_not_mem_cons hcalls
      have hkept' : ∀ size, Call.resize size ∈ rest → i < size.area := fun size hsize =>
        hkept size (List.mem_cons_of_mem _ hsize)
      rw [follow_cons]
      by_cases hresize : ∃ size, q = .resize size
      · obtain ⟨size, rfl⟩ := hresize
        have hsize : i < size.area := hkept size (List.mem_cons_self ..)
        have hold : i < (x.canvas.pixels layer).size := by rwa [hx layer]
        have hi' : i < (x.serve (.resize size)).canvas.size.area := hsize
        rw [ih (hx.serve _) hrest hi' hkept', pixels_resize, Canvas.getElem?_fit _ _ hsize,
          Array.getElem?_eq_getElem hold]
        rfl
      · have hne : ∀ size, q ≠ .resize size := fun size h => hresize ⟨size, h⟩
        rw [ih (hx.serve q) hrest (by rwa [size_serve_of_ne hne]) hkept',
          pixels_of_ne hne (Ne.symm hq)]

/-- A place that is outside the raster now or after a resize is blank when it is inside again. -/
theorem getElem?_dropped (hx : x.Fitted) {calls : List (Call σ)}
    (hcalls : Call.compute layer ∉ calls) {i : Nat}
    (hi : i < (x.follow calls).canvas.size.area)
    (hdropped : ¬ (i < x.canvas.size.area ∧ ∀ size, Call.resize size ∈ calls → i < size.area)) :
    ((x.follow calls).canvas.pixels layer)[i]? = some layer.blank := by
  induction calls generalizing x with
  | nil => exact absurd ⟨hi, fun size hsize => nomatch hsize⟩ hdropped
  | cons q rest ih =>
      obtain ⟨hq, hrest⟩ := List.ne_and_not_mem_of_not_mem_cons hcalls
      rw [follow_cons] at hi ⊢
      by_cases hlater : i < (x.serve q).canvas.size.area ∧
          ∀ size, Call.resize size ∈ rest → i < size.area
      · -- It is this call that brings the place back, so it is a resize.
        rw [getElem?_kept (hx.serve q) hrest hlater.1 hlater.2]
        by_cases hresize : ∃ size, q = .resize size
        · obtain ⟨size, rfl⟩ := hresize
          have hold : (x.canvas.pixels layer).size ≤ i := by
            rw [hx layer]
            refine Nat.le_of_not_lt fun hi => hdropped ⟨hi, fun size' hsize' => ?_⟩
            rcases List.mem_cons.1 hsize' with h | h
            · cases h
              exact hlater.1
            · exact hlater.2 size' h
          have hback : i < size.area := hlater.1
          rw [pixels_resize, Canvas.getElem?_fit _ _ hback, Array.getElem?_eq_none hold]
          rfl
        · have hne : ∀ size, q ≠ .resize size := fun size h => hresize ⟨size, h⟩
          refine absurd ⟨by rw [← size_serve_of_ne hne]; exact hlater.1, fun size hsize => ?_⟩
            hdropped
          rcases List.mem_cons.1 hsize with h | h
          · exact absurd h.symm (hne size)
          · exact hlater.2 size h
      · exact ih (hx.serve q) hrest hi hlater

end Buffers

/-! ## Observers -/

/-- The observers that calls register, the first one first. -/
def registered (calls : List (Call σ)) : List (MapObserver σ) := calls.filterMap Call.observer?

theorem observers_serve (x : Easel σ) (q : Call σ) :
    (x.serve q).canvas.observers = x.canvas.observers ++ registered [q] := by
  cases q with
  | observe observer => rfl
  | resize size => exact (List.append_nil _).symm
  | setHeight e =>
      rw [serve, Canvas.setHeight_fst]
      exact (List.append_nil _).symm
  | setColor e =>
      rw [serve, Canvas.setColor_fst]
      exact (List.append_nil _).symm
  | compute layer => cases layer <;> exact (List.append_nil _).symm

theorem observers_follow (x : Easel σ) (calls : List (Call σ)) :
    (x.follow calls).canvas.observers = x.canvas.observers ++ registered calls := by
  induction calls generalizing x with
  | nil => exact (List.append_nil _).symm
  | cons q rest ih =>
      rw [follow_cons, ih, observers_serve, List.append_assoc, registered, registered,
        ← List.filterMap_append, List.singleton_append]
      rfl

/-- Only a computation of heights reaches the observers. -/
theorem state_serve_of_ne (x : Easel σ) {q : Call σ} (hq : q ≠ .compute .height) :
    (x.serve q).state = x.state := by
  cases q with
  | observe | resize | setHeight | setColor => rfl
  | compute layer =>
      cases layer with
      | height => exact absurd rfl hq
      | color => rfl

/-! ## Whole histories -/

/-- **A canvas retains what was computed last, and only that.** After any history both buffers are
    as long as the raster is large, so that a computation that has a place to fill does not divide
    by a width of zero. Every computation of heights calls every observer registered before it
    once, in order, with the map it computed, which is as long as the raster; no other call does.
    A place of a buffer holds what the latest computation of this buffer wrote there if it was
    inside the raster then and after every resize since, and else the blank value. The height map
    is read into a buffer of its length exactly, and into no other. -/
theorem retains_computed (s : σ) (calls : List (Call σ)) :
    let x := (start s).follow calls
    (∀ layer, (x.canvas.pixels layer).size = x.canvas.size.width * x.canvas.size.height ∧
      ∀ i, i < (x.canvas.pixels layer).size → x.canvas.size.width ≠ 0) ∧
    (∀ before after, calls = before ++ Call.compute .height :: after →
      let y := (start s).follow before
      let z := (start s).follow (before ++ [Call.compute .height])
      z.canvas.size = y.canvas.size ∧
      z.canvas.heights.size = y.canvas.size.width * y.canvas.size.height ∧
      z.state = (registered before).foldl
        (fun s observer => observer z.canvas.heights y.canvas.size s) y.state) ∧
    (∀ before q after, calls = before ++ q :: after → q ≠ Call.compute .height →
      ((start s).follow (before ++ [q])).state = ((start s).follow before).state) ∧
    (∀ layer before after, calls = before ++ Call.compute layer :: after →
      Call.compute layer ∉ after →
      let y := (start s).follow before
      ∀ i, i < x.canvas.size.area →
        ((i < y.canvas.size.area ∧ ∀ size, Call.resize size ∈ after → i < size.area) →
          (x.canvas.pixels layer)[i]? = some (y.canvas.pixelAt layer i)) ∧
        (¬ (i < y.canvas.size.area ∧ ∀ size, Call.resize size ∈ after → i < size.area) →
          (x.canvas.pixels layer)[i]? = some layer.blank)) ∧
    (∀ layer, Call.compute layer ∉ calls → ∀ i, i < x.canvas.size.area →
      (x.canvas.pixels layer)[i]? = some layer.blank) ∧
    ∀ buffer : Array Float32, x.canvas.readHeights buffer
      = if buffer.size = x.canvas.size.width * x.canvas.size.height then .ok x.canvas.heights
        else .error (.bufferSize (x.canvas.size.width * x.canvas.size.height) buffer.size) := by
  intro x
  have hfitted : ∀ calls, ((start s).follow calls).Fitted := (fitted_start s).follow
  have hx : x.Fitted := hfitted calls
  refine ⟨fun layer => ⟨hx layer, fun i hi => ?_⟩, ?_, ?_, ?_, ?_, ?_⟩
  · rw [hx layer] at hi
    exact Nat.ne_of_gt (Nat.pos_of_lt_mul_right hi)
  · rintro before after - y z
    have hz : z = y.serve (.compute .height) := follow_append _ _ _
    have hsize : z.canvas.size = y.canvas.size := by
      rw [hz]
      exact size_serve_of_ne fun _ => nofun
    have hstate : z.state = y.canvas.observers.foldl
        (fun s observer => observer z.canvas.heights y.canvas.size s) y.state := by
      rw [hz]
      rfl
    refine ⟨hsize, ?_, ?_⟩
    · rw [← hsize]
      exact hfitted (before ++ [.compute .height]) .height
    · rw [hstate, observers_follow]
      rfl
  · rintro before q after - hq
    rw [follow_append]
    exact state_serve_of_ne _ hq
  · rintro layer before after rfl hafter y i hi
    have hy : y.Fitted := hfitted before
    have hsize : (y.serve (.compute layer)).canvas.size = y.canvas.size :=
      size_serve_of_ne fun _ => nofun
    have hrun : x = (y.serve (.compute layer)).follow after := follow_append _ _ _
    constructor
    · rintro ⟨hthen, hkept⟩
      rw [hrun, getElem?_kept (hy.serve _) hafter (by rwa [hsize]) hkept]
      exact getElem?_compute hy layer hthen
    · intro hdropped
      rw [hrun] at hi ⊢
      exact getElem?_dropped (hy.serve _) hafter hi (by rwa [hsize])
  · intro layer hnever i hi
    exact getElem?_dropped (fitted_start s) hnever hi fun h => absurd h.1 (Nat.not_lt_zero i)
  · intro buffer
    rw [Canvas.readHeights]
    have hlength : x.canvas.heights.size = x.canvas.size.width * x.canvas.size.height := hx .height
    rw [hlength]

end Easel

end Relief
