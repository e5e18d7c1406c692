import Relief.Render.Scanline

set_option autoImplicit false

/-! # Scanlines: the rows that a sink is pushed

A scanline renderer draws all rows into one buffer, so what it pushes looks as if it could depend
on the rows before. It does not: a row has four places for each pixel, all of them are overwritten,
and the sink is pushed the same rows as if each was drawn into a blank buffer of its own
(`execute_eq_ok_foldl`). -/

namespace Relief.ScanlineRenderer

variable {σ : Type} {height : Field Float32} {color : Field Color} {size : Size}

/-! ## One row -/

theorem size_blankRow (size : Size) : (blankRow size).size = size.width * 4 :=
  Array.size_replicate

/-- A row buffer has a group of places for each pixel. -/
theorem size_blankRow_div (size : Size) : (blankRow size).size / 4 = size.width := by
  rw [size_blankRow]
  exact Nat.mul_div_cancel _ (by decide)

@[simp]
theorem size_drawRow (y : Nat) (buffer : Array Float32) :
    (drawRow height color size y buffer).size = buffer.size :=
  Strided.size_fill _ _ _

theorem size_row (y : Nat) : (row height color size y).size = size.width * 4 := by
  rw [row, size_drawRow, size_blankRow]

/-- **A row does not depend on what its buffer held.** -/
theorem drawRow_eq_row {buffer : Array Float32} (hbuffer : buffer.size = size.width * 4) (y : Nat) :
    drawRow height color size y buffer = row height color size y := by
  have hsize : buffer.size = (blankRow size).size := hbuffer.trans (size_blankRow size).symm
  rw [row, drawRow, drawRow, hsize, size_blankRow_div]
  exact Strided.fill_eq_fill _ hbuffer (size_blankRow size)

/-- The four places of a pixel hold its four numbers. -/
theorem getElem?_row {x : Nat} (hx : x < size.width) (y : Nat) {j : Nat} (hj : j < 4) :
    (row height color size y)[x * 4 + j]?
      = some ((pixelAt height color size y x).channels.get ⟨j, hj⟩) := by
  have hplace : x * 4 + j < (blankRow size).size := by
    rw [size_blankRow]
    omega
  rw [row, drawRow, size_blankRow_div]
  exact Strided.getElem?_fill _ _ hx hj hplace

/-- The first of them is the height. -/
theorem getElem?_row_height {x : Nat} (hx : x < size.width) (y : Nat) :
    (row height color size y)[x * 4]?
      = some (height (Coords.ofPixel x y size.width size.height)) :=
  getElem?_row hx y (j := 0) (by decide)

/-! ## All rows -/

/-- Pushing rows one after the other through one buffer leaves a buffer of the same length, and
    the sink where rows of their own would have left it. -/
theorem fold_pushRow (size : Size) (sink : Array Float32 → σ → σ) (s : σ) (n : Nat) :
    ∃ buffer, buffer.size = size.width * 4 ∧
      Nat.fold n (fun y _ => pushRow height color size sink y) (blankRow size, s)
        = (buffer, (List.range n).foldl (fun s y => sink (row height color size y) s) s) := by
  induction n with
  | zero => exact ⟨blankRow size, size_blankRow size, rfl⟩
  | succ n ih =>
      obtain ⟨buffer, hbuffer, hfold⟩ := ih
      refine ⟨row height color size n, size_row n, ?_⟩
      rw [Nat.fold_succ, hfold, pushRow, drawRow_eq_row hbuffer, List.range_succ,
        List.foldl_append]
      rfl

/-- **With both fields there, every row is pushed once, from top to bottom**, each as it would be
    drawn into a blank buffer. -/
theorem execute_eq_ok_foldl {r : ScanlineRenderer} (hheight : r.height = some height)
    (hcolor : r.color = some color) (sink : Array Float32 → σ → σ) (s : σ) :
    r.execute sink s = .ok ((List.range r.size.height).foldl
      (fun s y => sink (row height color r.size y) s) s) := by
  obtain ⟨buffer, -, hfold⟩ := fold_pushRow r.size sink s r.size.height
  simp only [execute, hheight, hcolor]
  rw [hfold]

/-- A new renderer that is given a height and a colour expression of the right kinds pushes every
    row of their fields. -/
theorem render_eq_ok_foldl {e colors : Expr} (he : e.compile .float = .ok height)
    (hcolors : colors.compile .vec3 = .ok color) (size : Size) (sink : Array Float32 → σ → σ)
    (s : σ) :
    (do
      let r ← (new size).setHeight e
      let r ← r.setColor colors
      r.execute sink s) = .ok ((List.range size.height).foldl
        (fun s y => sink (row height color size y) s) s) := by
  simp only [setHeight, he, setColor, hcolors, bind, Except.bind]
  exact execute_eq_ok_foldl rfl rfl sink s

/-- A sink that collects the rows ends with all of them in order. -/
theorem foldl_collect_rows (n : Nat) :
    (List.range n).foldl (fun rows y => rows ++ [row height color size y]) []
      = (List.range n).map (row height color size) := by
  rw [List.foldl_append_eq_append, List.nil_append, ← List.flatMap_def, ← List.map_eq_flatMap]

end Relief.ScanlineRenderer
