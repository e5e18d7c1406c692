import Relief.Preview.Mosaic

set_option autoImplicit false

/-! # Galleries: mosaics that several handles lead to

A mosaic is registered with a renderer and kept for saving at the same time. Its holders have
handles of their own, which are cloned from each other, and a tile that is taken through one of them
shows through all. Here the mosaics are numbered and a handle is the number of its mosaic; cloning
copies the number. Handles never change (`handles_follow`), so every handle that leads to a mosaic
shows all tiles that were taken through any of them, and nothing else (`shown?_follow`). -/

namespace Relief

/-- Mosaics in use, and the handles that lead to them. -/
structure Gallery where
  mosaics : List Mosaic
  /-- The number of the mosaic that each handle leads to. -/
  handles : List Nat

/-- What the holders of handles can do. A handle that does not exist is no handle. -/
inductive Gallery.Call where
  | create (size : Size) (range : HeightRange)
  | clone (handle : Nat)
  | add (handle : Nat) (t : Tile)

namespace Gallery

/-- The tile that a call adds to the mosaic with number `k`, if it does. -/
def tileFor? (g : Gallery) (k : Nat) : Call → Option Tile
  | .create _ _ | .clone _ => none
  | .add handle t => if g.handles[handle]? = some k then some t else none

/-- Follows one call. A new mosaic comes with a handle to it. -/
def serve (g : Gallery) : Call → Gallery
  | .create size range =>
    ⟨g.mosaics ++ [Mosaic.new size range], g.handles ++ [g.mosaics.length]⟩
  | .clone handle => { g with handles := g.handles ++ g.handles[handle]?.toList }
  | .add handle t =>
    match g.handles[handle]? with
    | some k => { g with mosaics := g.mosaics.modify k (·.add t) }
    | none => g

/-- Follows calls in turn. -/
def follow (g : Gallery) (calls : List Call) : Gallery := calls.foldl serve g

/-- The tiles that calls add to the mosaic with number `k`, through whichever handle. -/
def received (k : Nat) : Gallery → List Call → List Tile
  | _, [] => []
  | g, q :: rest => (g.tileFor? k q).toList ++ received k (g.serve q) rest

/-- What a handle shows. -/
def shown? (g : Gallery) (handle : Nat) : Option Mosaic :=
  g.handles[handle]?.bind fun k => g.mosaics[k]?

variable {g : Gallery} {k handle : Nat} {m : Mosaic}

theorem handles_serve (g : Gallery) (q : Call) : g.handles <+: (g.serve q).handles := by
  cases q with
  | create size range => exact List.prefix_append _ _
  | clone handle => exact List.prefix_append _ _
  | add handle t =>
      cases hhandle : g.handles[handle]? <;> simp only [serve, hhandle, List.prefix_rfl]

/-- A handle leads to the same mosaic for good. -/
theorem handles_follow (g : Gallery) (calls : List Call) :
    g.handles <+: (g.follow calls).handles := by
  induction calls generalizing g with
  | nil => exact List.prefix_rfl
  | cons q rest ih => exact (handles_serve g q).trans (ih (g.serve q))

/-- A call adds its tile to the mosaic that its handle leads to, and to no other. -/
theorem mosaics_serve (hm : g.mosaics[k]? = some m) (q : Call) :
    (g.serve q).mosaics[k]? = some ((g.tileFor? k q).toList.foldl Mosaic.add m) := by
  cases q with
  | create size range =>
      have hk : k < g.mosaics.length := (List.getElem?_eq_some_iff.1 hm).1
      exact (List.getElem?_append_left hk).trans hm
  | clone handle => exact hm
  | add handle t =>
      cases hhandle : g.handles[handle]? with
      | none =>
          simp only [serve, tileFor?, hhandle, reduceCtorEq, if_false]
          exact hm
      | some n =>
          simp only [serve, tileFor?, hhandle, List.getElem?_modify, hm, Option.some.injEq]
          by_cases hn : n = k <;> simp [hn]

theorem mosaics_follow (hm : g.mosaics[k]? = some m) (calls : List Call) :
    (g.follow calls).mosaics[k]? = some ((g.received k calls).foldl Mosaic.add m) := by
  induction calls generalizing g m with
  | nil => exact hm
  | cons q rest ih =>
      unfold received
      rw [List.foldl_append]
      exact ih (mosaics_serve hm q)

/-- **All handles to a mosaic show the same**, every tile that was added through any of them. -/
theorem shown?_follow (hm : g.mosaics[k]? = some m) (calls : List Call)
    (hhandle : (g.follow calls).handles[handle]? = some k) :
    (g.follow calls).shown? handle = some ((g.received k calls).foldl Mosaic.add m) := by
  unfold shown?
  rw [hhandle]
  exact mosaics_follow hm calls

/-- The handle that comes with a new mosaic, and what the calls after make of it. -/
theorem created (g : Gallery) (size : Size) (range : HeightRange) (calls : List Call) :
    let opened := g.serve (.create size range)
    opened.mosaics[g.mosaics.length]? = some (Mosaic.new size range) ∧
      (opened.follow calls).handles[g.handles.length]? = some g.mosaics.length := by
  intro opened
  have hhandle : opened.handles[g.handles.length]? = some g.mosaics.length :=
    List.getElem?_concat_length
  constructor
  · exact List.getElem?_concat_length
  · obtain ⟨more, hmore⟩ := handles_follow opened calls
    have hlt : g.handles.length < opened.handles.length := (List.getElem?_eq_some_iff.1 hhandle).1
    rw [← hmore, List.getElem?_append_left hlt]
    exact hhandle

end Gallery

end Relief
