import Relief.Proofs.Canvases
import Relief.Proofs.Scanlines
import Relief.Proofs.Session

set_option autoImplicit false

/-! # Policies: what becomes of a field when an expression is refused

The renderers and the canvas treat an expression that does not lower in opposite ways. A renderer
refuses it and keeps the field it has, so over a whole history its field is that of the last
accepted expression, and the refused ones might as well not have been sent. A canvas takes every
expression as the latest edit, so only the last one counts, and if that one is missing or does not
lower the canvas shows zero.

Both sides are computed from the list of expressions of a history alone (`Expr.lastAccepted?`,
`Canvas.shown`); the other requests in between, and the expressions for the other layer, do not
occur in them. Where the last height expression is accepted, the two policies meet, and a renderer
and a canvas agree on every height (`failure_policies`). -/

namespace Relief

/-! ## The last accepted expression -/

/-- What the first call of a history sends, and what the others send. -/
theorem filterMap_cons_eq_append {α β : Type} (f : α → Option β) (q : α) (rest : List α) :
    (q :: rest).filterMap f = [q].filterMap f ++ rest.filterMap f := by
  rw [← List.filterMap_append, List.singleton_append]

/-- The field of the last expression in a list that lowers to a target. -/
def Expr.lastAccepted? (target : Target) (es : List Expr) : Option (Field target.Value) :=
  (es.filterMap (Expr.lower target)).getLast?

namespace Expr

variable {target : Target}

theorem lastAccepted?_singleton (e : Expr) : lastAccepted? target [e] = e.lower target := by
  simp only [lastAccepted?, List.filterMap_cons, List.filterMap_nil]
  cases e.lower target <;> rfl

theorem lastAccepted?_append (es more : List Expr) :
    lastAccepted? target (es ++ more)
      = (lastAccepted? target more).or (lastAccepted? target es) := by
  simp only [lastAccepted?, List.filterMap_append, List.getLast?_append]

/-- An accepted expression at the end is the last accepted one. -/
theorem lastAccepted?_of_getLast? {es : List Expr} {e : Expr} {field : Field target.Value}
    (hlast : es.getLast? = some e) (he : e.lower target = some field) :
    lastAccepted? target es = some field := by
  obtain ⟨before, rfl⟩ := List.getLast?_eq_some_iff.1 hlast
  rw [lastAccepted?_append, lastAccepted?_singleton, he]
  rfl

end Expr

/-! ## Tiled rendering -/

namespace Request

variable {σ : Type}

/-- The height expression that a request sends. -/
def height? : Request σ → Option Expr
  | setHeight e => some e
  | observe _ | setSize _ | setSampling _ | begin | poll | finish => none

/-- Whether a request is not a refused expression. -/
def isAccepted : Request σ → Bool
  | setHeight e => (e.lower .float).isSome
  | observe _ | setSize _ | setSampling _ | begin | poll | finish => true

end Request

namespace Session

variable {σ : Type}

/-- The height expressions of a history. -/
def heights (requests : List (Request σ)) : List Expr := requests.filterMap Request.height?

theorem heights_cons (q : Request σ) (rest : List (Request σ)) :
    heights (q :: rest) = heights [q] ++ heights rest :=
  filterMap_cons_eq_append _ q rest

theorem setHeight_of_lower {r : TileRenderer σ} {e : Expr} {field : Field Float32}
    (he : e.lower .float = some field) : r.setHeight e = .ok { r with height := some field } := by
  simp only [TileRenderer.setHeight, Expr.compile_eq_ok_iff.2 he]

theorem serve_setHeight_of_refused (x : Session σ) {e : Expr} (he : e.lower .float = none) :
    x.serve (.setHeight e) = x := by
  simp only [serve, TileRenderer.setHeight, Expr.compile, he, set]

/-- Only an accepted expression changes the field. -/
theorem height_serve (x : Session σ) (q : Request σ) : (x.serve q).renderer.height
    = (Expr.lastAccepted? .float (heights [q])).or x.renderer.height := by
  cases q with
  | setHeight e =>
      have hlast : Expr.lastAccepted? .float (heights [Request.setHeight (σ := σ) e])
          = e.lower .float := Expr.lastAccepted?_singleton e
      rw [hlast]
      cases he : e.lower .float with
      | none =>
          rw [serve_setHeight_of_refused x he]
          rfl
      | some field =>
          rw [serve, setHeight_of_lower he]
          rfl
  | observe observer => rfl
  | setSize size => rfl
  | setSampling sampling => rfl
  | begin => exact (serve_settings x rfl).1
  | poll => exact (serve_settings x rfl).1
  | finish =>
      simp only [serve, TileRenderer.finish]
      cases x.renderer.frame <;> rfl

theorem height_follow (x : Session σ) (requests : List (Request σ)) :
    (x.follow requests).renderer.height
      = (Expr.lastAccepted? .float (heights requests)).or x.renderer.height := by
  induction requests generalizing x with
  | nil => rfl
  | cons q rest ih =>
      rw [follow_cons, ih, height_serve, heights_cons q rest, Expr.lastAccepted?_append,
        Option.or_assoc]

/-- **Refused expressions leave no trace** in a session. -/
theorem follow_filter_isAccepted (x : Session σ) (requests : List (Request σ)) :
    x.follow (requests.filter Request.isAccepted) = x.follow requests := by
  induction requests generalizing x with
  | nil => rfl
  | cons q rest ih =>
      by_cases hq : q.isAccepted = true
      · rw [List.filter_cons_of_pos hq, follow_cons, follow_cons, ih]
      · rw [List.filter_cons_of_neg hq, follow_cons, ih]
        cases q with
        | setHeight e =>
            have he : e.lower .float = none := by simpa [Request.isAccepted] using hq
            rw [serve_setHeight_of_refused x he]
        | observe | setSize | setSampling | begin | poll | finish => exact absurd rfl hq

end Session

/-! ## Scanline rendering -/

/-- What a caller can ask of a scanline renderer. -/
inductive ScanlineRenderer.Call where
  | setHeight (e : Expr)
  | setColor (e : Expr)
  | execute

namespace ScanlineRenderer.Call

/-- The height expression that a call sends. -/
def height? : ScanlineRenderer.Call → Option Expr
  | setHeight e => some e
  | setColor _ | execute => none

/-- The colour expression that a call sends. -/
def color? : ScanlineRenderer.Call → Option Expr
  | setColor e => some e
  | setHeight _ | execute => none

/-- Whether a call is not a refused expression. -/
def isAccepted : ScanlineRenderer.Call → Bool
  | setHeight e => (e.lower .float).isSome
  | setColor e => (e.lower .vec3).isSome
  | execute => true

end ScanlineRenderer.Call

/-- A scanline renderer in use, with the state that its sink acts on. -/
structure Press (σ : Type) where
  renderer : ScanlineRenderer
  state : σ

namespace Press

open ScanlineRenderer (Call)

variable {σ : Type} (sink : Array Float32 → σ → σ)

/-- A renderer without fields that is taken into use. -/
def start (size : Size) (s : σ) : Press σ := ⟨.new size, s⟩

/-- Goes on with the renderer that an operation leaves, unless it fails. -/
def set (x : Press σ) (result : Except RenderError ScanlineRenderer) : Press σ :=
  match result with
  | .ok r => { x with renderer := r }
  | .error _ => x

/-- Follows one call; a call that fails leaves everything as it is. -/
def serve (x : Press σ) : Call → Press σ
  | .setHeight e => x.set (x.renderer.setHeight e)
  | .setColor e => x.set (x.renderer.setColor e)
  | .execute =>
    match x.renderer.execute sink x.state with
    | .ok s => { x with state := s }
    | .error _ => x

/-- Follows calls in turn. -/
def follow (x : Press σ) (calls : List Call) : Press σ := calls.foldl (serve sink) x

@[simp]
theorem follow_cons (x : Press σ) (q : Call) (rest : List Call) :
    x.follow sink (q :: rest) = (x.serve sink q).follow sink rest := rfl

/-- The height expressions of a history. -/
def heights (calls : List Call) : List Expr := calls.filterMap Call.height?

/-- The colour expressions of a history. -/
def colors (calls : List Call) : List Expr := calls.filterMap Call.color?

theorem heights_cons (q : Call) (rest : List Call) :
    heights (q :: rest) = heights [q] ++ heights rest :=
  filterMap_cons_eq_append _ q rest

theorem colors_cons (q : Call) (rest : List Call) :
    colors (q :: rest) = colors [q] ++ colors rest :=
  filterMap_cons_eq_append _ q rest

/-- What one call does to the renderer: an accepted expression becomes the field of its layer, and
    nothing else changes. -/
theorem renderer_serve (x : Press σ) (q : Call) : (x.serve sink q).renderer
    = ⟨x.renderer.size, (Expr.lastAccepted? .float (heights [q])).or x.renderer.height,
        (Expr.lastAccepted? .vec3 (colors [q])).or x.renderer.color⟩ := by
  cases q with
  | setHeight e =>
      have hlast : Expr.lastAccepted? .float (heights [Call.setHeight e]) = e.lower .float :=
        Expr.lastAccepted?_singleton e
      rw [hlast]
      simp only [serve, ScanlineRenderer.setHeight, Expr.compile]
      cases e.lower .float <;> rfl
  | setColor e =>
      have hlast : Expr.lastAccepted? .vec3 (colors [Call.setColor e]) = e.lower .vec3 :=
        Expr.lastAccepted?_singleton e
      rw [hlast]
      simp only [serve, ScanlineRenderer.setColor, Expr.compile]
      cases e.lower .vec3 <;> rfl
  | execute =>
      simp only [serve]
      cases x.renderer.execute sink x.state <;> rfl

theorem renderer_follow (x : Press σ) (calls : List Call) : (x.follow sink calls).renderer
    = ⟨x.renderer.size, (Expr.lastAccepted? .float (heights calls)).or x.renderer.height,
        (Expr.lastAccepted? .vec3 (colors calls)).or x.renderer.color⟩ := by
  induction calls generalizing x with
  | nil => rfl
  | cons q rest ih =>
      rw [follow_cons, ih, renderer_serve, heights_cons q rest, colors_cons q rest,
        Expr.lastAccepted?_append, Expr.lastAccepted?_append, Option.or_assoc, Option.or_assoc]

theorem renderer_follow_start (size : Size) (s : σ) (calls : List Call) :
    ((start size s).follow sink calls).renderer = ⟨size, Expr.lastAccepted? .float (heights calls),
      Expr.lastAccepted? .vec3 (colors calls)⟩ := by
  rw [renderer_follow]
  simp only [start, ScanlineRenderer.new, Option.or_none]

/-- An execution without a field fails, and a call that fails leaves everything as it is. -/
theorem serve_execute_of_missing {x : Press σ}
    (h : x.renderer.height = none ∨ x.renderer.color = none) : x.serve sink .execute = x := by
  have hfails : ∃ err, x.renderer.execute sink x.state = .error err := by
    rw [ScanlineRenderer.execute]
    rcases h with hheight | hcolor
    · exact ⟨_, by rw [hheight]⟩
    · cases x.renderer.height with
      | none => exact ⟨_, rfl⟩
      | some field => exact ⟨_, by rw [hcolor]⟩
  obtain ⟨err, herr⟩ := hfails
  simp only [serve, herr]

theorem serve_of_not_isAccepted (x : Press σ) {q : Call} (hq : ¬ q.isAccepted = true) :
    x.serve sink q = x := by
  cases q with
  | setHeight e =>
      have he : e.lower .float = none := by simpa [Call.isAccepted] using hq
      simp only [serve, ScanlineRenderer.setHeight, Expr.compile, he, set]
  | setColor e =>
      have he : e.lower .vec3 = none := by simpa [Call.isAccepted] using hq
      simp only [serve, ScanlineRenderer.setColor, Expr.compile, he, set]
  | execute => exact absurd rfl hq

/-- **Refused expressions leave no trace** in the rows either. -/
theorem follow_filter_isAccepted (x : Press σ) (calls : List Call) :
    x.follow sink (calls.filter Call.isAccepted) = x.follow sink calls := by
  induction calls generalizing x with
  | nil => rfl
  | cons q rest ih =>
      by_cases hq : q.isAccepted = true
      · rw [List.filter_cons_of_pos hq, follow_cons, follow_cons, ih]
      · rw [List.filter_cons_of_neg hq, follow_cons, ih, serve_of_not_isAccepted sink x hq]

end Press

/-! ## Canvases -/

namespace Canvas.Call

variable {σ : Type}

/-- What a call sends as height expression. -/
def height? : Call σ → Option (Option Expr)
  | setHeight e => some e
  | observe _ | resize _ | setColor _ | compute _ => none

/-- What a call sends as colour expression. -/
def color? : Call σ → Option (Option Expr)
  | setColor e => some e
  | observe _ | resize _ | setHeight _ | compute _ => none

end Canvas.Call

namespace Easel

open Canvas (Call)

variable {σ : Type}

/-- What a history sends as height expressions. -/
def heights (calls : List (Call σ)) : List (Option Expr) := calls.filterMap Call.height?

/-- What a history sends as colour expressions. -/
def colors (calls : List (Call σ)) : List (Option Expr) := calls.filterMap Call.color?

theorem heights_cons (q : Call σ) (rest : List (Call σ)) :
    heights (q :: rest) = heights [q] ++ heights rest :=
  filterMap_cons_eq_append _ q rest

theorem colors_cons (q : Call σ) (rest : List (Call σ)) :
    colors (q :: rest) = colors [q] ++ colors rest :=
  filterMap_cons_eq_append _ q rest

/-- What one call does to the fields: an expression that is sent replaces the field of its layer
    whether it lowers or not, and the other one stays. -/
theorem fields_serve (x : Easel σ) (q : Call σ) :
    (x.serve q).canvas.heightField = ((heights [q]).getLast?.map
      (Canvas.shown .float Canvas.flat)).getD x.canvas.heightField ∧
    (x.serve q).canvas.colorField = ((colors [q]).getLast?.map
      (Canvas.shown .vec3 Canvas.dark)).getD x.canvas.colorField := by
  cases q with
  | observe observer => exact ⟨rfl, rfl⟩
  | resize size => exact ⟨rfl, rfl⟩
  | setHeight e =>
      rw [serve, Canvas.setHeight_fst]
      exact ⟨rfl, rfl⟩
  | setColor e =>
      rw [serve, Canvas.setColor_fst]
      exact ⟨rfl, rfl⟩
  | compute layer => cases layer <;> exact ⟨rfl, rfl⟩

theorem getD_map_getLast?_append {α β : Type} (f : α → β) (default : β) (xs more : List α) :
    ((xs ++ more).getLast?.map f).getD default
      = (more.getLast?.map f).getD ((xs.getLast?.map f).getD default) := by
  rw [List.getLast?_append]
  cases more.getLast? <;> rfl

theorem fields_follow (x : Easel σ) (calls : List (Call σ)) :
    (x.follow calls).canvas.heightField = ((heights calls).getLast?.map
      (Canvas.shown .float Canvas.flat)).getD x.canvas.heightField ∧
    (x.follow calls).canvas.colorField = ((colors calls).getLast?.map
      (Canvas.shown .vec3 Canvas.dark)).getD x.canvas.colorField := by
  induction calls generalizing x with
  | nil => exact ⟨rfl, rfl⟩
  | cons q rest ih =>
      obtain ⟨hheight, hcolor⟩ := fields_serve x q
      rw [follow_cons, (ih _).1, (ih _).2, hheight, hcolor, heights_cons q rest, colors_cons q rest,
        getD_map_getLast?_append, getD_map_getLast?_append]
      exact ⟨rfl, rfl⟩

/-- The fields of a canvas after a history are those of the last expressions, or zero. -/
theorem fields_follow_start (s : σ) (calls : List (Call σ)) :
    ((start s).follow calls).canvas.heightField
      = Canvas.shown .float Canvas.flat (heights calls).getLast?.join ∧
    ((start s).follow calls).canvas.colorField
      = Canvas.shown .vec3 Canvas.dark (colors calls).getLast?.join := by
  obtain ⟨hheight, hcolor⟩ := fields_follow (start s) calls
  rw [hheight, hcolor]
  constructor
  · cases (heights calls).getLast? <;> rfl
  · cases (colors calls).getLast? <;> rfl

end Easel

/-! ## The two policies -/

/-- A renderer of rows and a canvas with the same field agree on every pixel. -/
theorem Canvas.heights_eq_rows {σ : Type} {c : Canvas σ} (hsize : c.heights.size = c.size.area)
    {field : Field Float32} (hfield : c.heightField = field) {color? : Option (Field Color)} (s : σ)
    {rows : List (Array Float32)}
    (hrun : (⟨c.size, some field, color?⟩ : ScanlineRenderer).execute
      (fun row rows => rows ++ [row]) [] = .ok rows) :
    rows.length = c.size.height ∧
      ∀ px py, px < c.size.width → py < c.size.height → ∃ row height,
        rows[py]? = some row ∧ row[px * 4]? = some height ∧
        (c.computeHeights s).1.heights[py * c.size.width + px]? = some height := by
  cases color? with
  | none => cases hrun
  | some color =>
      rw [ScanlineRenderer.execute_eq_ok_foldl rfl rfl,
        ScanlineRenderer.foldl_collect_rows] at hrun
      cases hrun
      refine ⟨by rw [List.length_map, List.length_range], fun px py hpx hpy => ?_⟩
      refine ⟨ScanlineRenderer.row field color c.size py, _, ?_,
        ScanlineRenderer.getElem?_row_height hpx py, ?_⟩
      · rw [List.getElem?_map, List.getElem?_range hpy]
        rfl
      · rw [Canvas.getElem?_computeHeights hsize s hpx hpy, hfield]

/-- **A renderer keeps the last accepted field, a canvas shows the last edit.**

Tiles and rows show the field of the last height expression that was accepted, whatever was refused
before or after it; a history without its refused expressions leads to the same session. Where none
was accepted, a poll of an open frame and an execution report the missing field, the height before
the colour, and no row is pushed.

A canvas computes the field of the last expression that was sent, and zero where this one is missing
or does not lower, or where none was sent. For all of them the field of a layer depends on the
expressions for that layer only.

A renderer of rows and a canvas of the same size that were sent the same height expressions, the
last of which is accepted, agree on the height of every pixel. -/
theorem failure_policies :
    (∀ (σ : Type) (s : σ) (requests : List (Request σ)),
      let x := (Session.start TileRenderer.new s).follow requests
      let kept := Expr.lastAccepted? .float (Session.heights requests)
      x = (Session.start TileRenderer.new s).follow (requests.filter Request.isAccepted) ∧
      ∀ f, x.renderer.frame = some f →
        (kept = none → x.renderer.poll x.state = .error (.missingExpr .height)) ∧
        ∀ field, kept = some field → f.remaining ≠ 0 →
          let t := TileRenderer.render field x.renderer.sampling f.size f.nextTile
          x.renderer.poll x.state = .ok ({ x.renderer with frame := some f.advance },
            TileRenderer.notify x.renderer.observers t x.state)) ∧
    (∀ (σ : Type) (size : Size) (s : σ) (sink : Array Float32 → σ → σ)
      (calls : List ScanlineRenderer.Call),
      let x := (Press.start size s).follow sink calls
      let height? := Expr.lastAccepted? .float (Press.heights calls)
      let color? := Expr.lastAccepted? .vec3 (Press.colors calls)
      x = (Press.start size s).follow sink (calls.filter ScanlineRenderer.Call.isAccepted) ∧
      (height? = none → x.renderer.execute sink x.state = .error (.missingExpr .height)) ∧
      (height? ≠ none → color? = none →
        x.renderer.execute sink x.state = .error (.missingExpr .color)) ∧
      (height? = none ∨ color? = none → x.serve sink .execute = x) ∧
      ∀ height color, height? = some height → color? = some color →
        x.renderer.execute sink x.state = .ok ((List.range size.height).foldl
          (fun s y => sink (ScanlineRenderer.row height color size y) s) x.state)) ∧
    (∀ (σ : Type) (s : σ) (calls : List (Canvas.Call σ)),
      let x := (Easel.start s).follow calls
      let height := Canvas.shown .float Canvas.flat (Easel.heights calls).getLast?.join
      let color := Canvas.shown .vec3 Canvas.dark (Easel.colors calls).getLast?.join
      ∀ i, i < x.canvas.size.area →
        (x.canvas.computeHeights x.state).1.heights[i]?
          = some (height (Canvas.coords x.canvas.size i)) ∧
        x.canvas.computeSurface.surface[i]?
          = some (Rgb.ofColor (color (Canvas.coords x.canvas.size i)))) ∧
    ∀ (σ τ : Type) (s : σ) (t : τ) (sink : Array Float32 → τ → τ) (edits : List (Canvas.Call σ))
      (calls : List ScanlineRenderer.Call) (e : Expr) (field : Field Float32),
      let c := ((Easel.start s).follow edits).canvas
      let r := ((Press.start c.size t).follow sink calls).renderer
      Easel.heights edits = (Press.heights calls).map some →
      (Press.heights calls).getLast? = some e → e.compile .float = .ok field →
      ∀ rows, r.execute (fun row rows => rows ++ [row]) [] = .ok rows →
        rows.length = c.size.height ∧
        ∀ px py, px < c.size.width → py < c.size.height → ∃ row height,
          rows[py]? = some row ∧ row[px * 4]? = some height ∧
          (c.computeHeights s).1.heights[py * c.size.width + px]? = some height := by
  refine ⟨?_, ?_, ?_, ?_⟩
  · intro σ s requests x kept
    have hkept : x.renderer.height = kept := by
      rw [show x.renderer.height = _ from Session.height_follow _ requests]
      exact Option.or_none
    refine ⟨(Session.follow_filter_isAccepted _ requests).symm, fun f hf => ⟨fun hnone => ?_, ?_⟩⟩
    · simp only [TileRenderer.poll, TileRenderer.renderNext, hf, hkept, hnone]
    · intro field hfield hleft t
      rw [TileRenderer.poll_eq_ok_iff]
      exact ⟨t, TileRenderer.renderNext_eq_ok_iff.2
        ⟨f, field, hf, hkept.trans hfield, hleft, rfl, rfl⟩, rfl⟩
  · intro σ size s sink calls x height? color?
    have hrenderer : x.renderer = ⟨size, height?, color?⟩ :=
      Press.renderer_follow_start sink size s calls
    refine ⟨(Press.follow_filter_isAccepted sink _ calls).symm, fun hheight => ?_,
      fun hheight hcolor => ?_, fun hmissing => ?_, fun height color hheight hcolor => ?_⟩
    · simp only [hrenderer, hheight, ScanlineRenderer.execute]
    · obtain ⟨field, hfield⟩ := Option.ne_none_iff_exists'.1 hheight
      simp only [hrenderer, hfield, hcolor, ScanlineRenderer.execute]
    · exact Press.serve_execute_of_missing sink (by rwa [hrenderer])
    · rw [hrenderer]
      exact ScanlineRenderer.execute_eq_ok_foldl hheight hcolor sink x.state
  · intro σ s calls x height color i hi
    obtain ⟨hheight, hcolor⟩ := Easel.fields_follow_start s calls
    have hx : x.Fitted := (Easel.fitted_start s).follow calls
    refine ⟨(Easel.getElem?_compute hx .height hi).trans ?_,
      (Easel.getElem?_compute hx .color hi).trans ?_⟩
    · exact congrArg (fun f : Field Float32 => some (f _)) hheight
    · exact congrArg (fun f : Field Color => some (Rgb.ofColor (f _))) hcolor
  · intro σ τ s t sink edits calls e field c r hsame hlast he rows hrun
    have hlower : e.lower .float = some field := Expr.compile_eq_ok_iff.1 he
    have hfield : c.heightField = field := by
      rw [show c.heightField = _ from (Easel.fields_follow_start s edits).1, hsame,
        List.getLast?_map, hlast]
      simp only [Option.map_some, Option.join_some, Canvas.shown, Option.bind_some, hlower,
        Option.getD_some]
    have hrenderer : r = ⟨c.size, some field, Expr.lastAccepted? .vec3 (Press.colors calls)⟩ := by
      rw [show r = _ from Press.renderer_follow_start sink _ _ calls,
        Expr.lastAccepted?_of_getLast? hlast hlower]
    rw [hrenderer] at hrun
    exact Canvas.heights_eq_rows ((Easel.fitted_start s).follow edits .height) hfield s hrun

end Relief
