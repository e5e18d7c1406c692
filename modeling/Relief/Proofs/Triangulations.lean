import Relief.Proofs.Meshes

set_option autoImplicit false

/-! # Triangulations: every side of a triangle meets its mate

A quad has six sides of triangles: four along its edges and, one for each half, two along its
diagonal. No two of them go the same way (`Side.eq_of_steps`), so from where it starts and where it
ends a side is known together with its quad; this is why no triangle goes where another one goes
already. For every side there is one other that goes the opposite way, its mate: on the diagonal it
belongs to the other half of the same quad, on an edge to the quad beyond this edge. Only where the
grid ends there is no quad beyond. -/

namespace Relief.Mesh

/-! ## Triangles of a mesh -/

/-- The point in the `k`-th corner of the `i`-th triangle. -/
def corner? (m : Mesh) (i k : Nat) : Option Nat := m.indices[3 * i + k]?.map UInt16.toNat

/-- Going around the `i`-th triangle, `q` comes next after `p`. -/
def Goes (m : Mesh) (i p q : Nat) : Prop :=
  ∃ k < 3, m.corner? i k = some p ∧ m.corner? i ((k + 1) % 3) = some q

/-- The `i`-th triangle has an edge between `p` and `q`. -/
def HasEdge (m : Mesh) (i p q : Nat) : Prop := m.Goes i p q ∨ m.Goes i q p

/-- Two points lie in the first column of a `w × h` grid, in its last one, in its first row or in
    its last one. -/
def AlongBorder (w h p q : Nat) : Prop :=
  (p % w = 0 ∧ q % w = 0) ∨ (p % w + 1 = w ∧ q % w + 1 = w) ∨
    (p / w = 0 ∧ q / w = 0) ∨ (p / w + 1 = h ∧ q / w + 1 = h)

/-- The triangles of a mesh fit together on a `w × h` grid of points: whatever edges they share, they
    share with one neighbour, and all of them are turned the same way. -/
structure Triangulates (m : Mesh) (w h : Nat) : Prop where
  /-- The points are those of the grid. -/
  positionCount : m.positionCount = w * h
  /-- Every index is the number of a point. -/
  index_lt : ∀ index ∈ m.indices, index.toNat < m.positionCount
  /-- There are two triangles for every quad. -/
  triangleCount : m.triangleCount = 2 * (w - 1) * (h - 1)
  /-- No index is left over. -/
  size_indices : m.indices.size = 3 * m.triangleCount
  /-- The corners of a triangle are three different points. -/
  corners : ∀ i < m.triangleCount, ∃ a b c, m.corner? i 0 = some a ∧ m.corner? i 1 = some b ∧
    m.corner? i 2 = some c ∧ a ≠ b ∧ b ≠ c ∧ c ≠ a
  /-- No two triangles go from one point to another. -/
  goes_unique : ∀ i j p q, m.Goes i p q → m.Goes j p q → i = j
  /-- An edge inside of the grid belongs to two triangles, which pass it in opposite directions. -/
  inside : ∀ i p q, m.Goes i p q → ¬AlongBorder w h p q →
    ∃ j, j ≠ i ∧ m.Goes j q p ∧ ∀ l, m.HasEdge l p q ↔ l = i ∨ l = j
  /-- An edge along the border belongs to one triangle. -/
  border : ∀ i p q, m.Goes i p q → AlongBorder w h p q → ∀ l, m.HasEdge l p q ↔ l = i
  /-- Every point is a corner of a triangle. -/
  covers : 2 ≤ w → 2 ≤ h → ∀ p < m.positionCount,
    ∃ i < m.triangleCount, ∃ k < 3, m.corner? i k = some p

/-! ## Sides of the triangles of a quad -/

/-- The sides of the two halves of a quad, as they are passed on the way around. The upper left half
    has its `left` edge, the diagonal `rising` from the lower left to the upper right corner, and
    the `top` edge; the lower right half has the `bottom` edge, the `right` edge and the same
    diagonal, `falling`. -/
inductive Side
  | left | rising | top | bottom | right | falling

namespace Side

/-- The half whose side it is. -/
def half : Side → Nat
  | left => 0
  | rising => 0
  | top => 0
  | bottom => 1
  | right => 1
  | falling => 1

/-- Its number among the sides of the half. -/
def turn : Side → Nat
  | left => 0
  | rising => 1
  | top => 2
  | bottom => 0
  | right => 1
  | falling => 2

/-- The columns from the first corner of the quad to the start of the side. -/
def column : Side → Nat
  | left => 0
  | rising => 0
  | top => 1
  | bottom => 0
  | right => 1
  | falling => 1

/-- The rows from the first corner of the quad to the start of the side. -/
def row : Side → Nat
  | left => 0
  | rising => 1
  | top => 0
  | bottom => 1
  | right => 1
  | falling => 0

/-- The side of the same half that starts where this one ends. -/
def next : Side → Side
  | left => rising
  | rising => top
  | top => left
  | bottom => right
  | right => falling
  | falling => bottom

/-- The side, of this quad or of one beside it, that goes the opposite way. -/
def mate : Side → Side
  | left => right
  | rising => falling
  | top => bottom
  | bottom => top
  | right => left
  | falling => rising

theorem half_next (s : Side) : s.next.half = s.half := by cases s <;> rfl

theorem turn_next (s : Side) : s.next.turn = (s.turn + 1) % 3 := by cases s <;> rfl

theorem half_lt (s : Side) : s.half < 2 := by cases s <;> decide

theorem turn_lt (s : Side) : s.turn < 3 := by cases s <;> decide

theorem column_le (s : Side) : s.column ≤ 1 := by cases s <;> decide

theorem row_le (s : Side) : s.row ≤ 1 := by cases s <;> decide

/-- Every half has three sides. -/
theorem exists_turn {half turn : Nat} (hhalf : half < 2) (hturn : turn < 3) :
    ∃ s : Side, s.half = half ∧ s.turn = turn := by
  obtain rfl | rfl : half = 0 ∨ half = 1 := by omega
  · obtain rfl | rfl | rfl : turn = 0 ∨ turn = 1 ∨ turn = 2 := by omega
    · exact ⟨left, rfl, rfl⟩
    · exact ⟨rising, rfl, rfl⟩
    · exact ⟨top, rfl, rfl⟩
  · obtain rfl | rfl | rfl : turn = 0 ∨ turn = 1 ∨ turn = 2 := by omega
    · exact ⟨bottom, rfl, rfl⟩
    · exact ⟨right, rfl, rfl⟩
    · exact ⟨falling, rfl, rfl⟩

/-- A side starts in every corner of a quad. -/
theorem exists_start {column row : Nat} (hcolumn : column ≤ 1) (hrow : row ≤ 1) :
    ∃ s : Side, s.column = column ∧ s.row = row := by
  rcases Nat.le_one_iff_eq_zero_or_eq_one.1 hcolumn with rfl | rfl <;>
    rcases Nat.le_one_iff_eq_zero_or_eq_one.1 hrow with rfl | rfl
  · exact ⟨left, rfl, rfl⟩
  · exact ⟨rising, rfl, rfl⟩
  · exact ⟨top, rfl, rfl⟩
  · exact ⟨right, rfl, rfl⟩

/-- **No two sides go the same way**, by as many columns and as many rows. -/
theorem eq_of_steps {s s' : Side} (hcolumn : s.next.column + s'.column = s'.next.column + s.column)
    (hrow : s.next.row + s'.row = s'.next.row + s.row) : s = s' := by
  cases s <;> cases s' <;> simp_all [next, column, row]

/-- The mate goes back by the columns of the side. -/
theorem column_mate (s : Side) :
    s.mate.next.column + s.next.column = s.mate.column + s.column := by
  cases s <;> rfl

/-- The mate goes back by the rows of the side. -/
theorem row_mate (s : Side) : s.mate.next.row + s.next.row = s.mate.row + s.row := by
  cases s <;> rfl

/-- A side and its mate belong to different halves, be it of one quad or of two. -/
theorem half_mate_ne (s : Side) : s.mate.half ≠ s.half := by cases s <;> decide

/-- The point where the side of the quad at column `x` of row `y` starts. -/
def point (s : Side) (w x y : Nat) : Nat := (y + s.row) * w + (x + s.column)

variable {s s' : Side} {w h x y x' y' : Nat}

/-- Sides do not leave their quad. -/
theorem column_lt (s : Side) (hx : x + 1 < w) : x + s.column < w := by
  have := s.column_le
  omega

theorem row_lt (s : Side) (hy : y + 1 < h) : y + s.row < h := by
  have := s.row_le
  omega

/-- Equal points are in the same column and in the same row. -/
theorem point_inj (hx : x + 1 < w) (hx' : x' + 1 < w) (hpoint : s.point w x y = s'.point w x' y') :
    x + s.column = x' + s'.column ∧ y + s.row = y' + s'.row :=
  rowMajor_inj (s.column_lt hx) (s'.column_lt hx') hpoint

theorem point_ne_next (s : Side) (hx : x + 1 < w) : s.point w x y ≠ s.next.point w x y := by
  intro hpoint
  obtain ⟨hcolumn, hrow⟩ := point_inj hx hx hpoint
  cases s <;> simp [next, column, row] at hcolumn hrow

/-- **A side is known from where it starts and where it ends**, and so is its quad. -/
theorem eq_of_points (hx : x + 1 < w) (hx' : x' + 1 < w) (hstart : s.point w x y = s'.point w x' y')
    (hend : s.next.point w x y = s'.next.point w x' y') : s = s' ∧ x = x' ∧ y = y' := by
  obtain ⟨hcolumn, hrow⟩ := point_inj hx hx' hstart
  obtain ⟨hcolumn', hrow'⟩ := point_inj hx hx' hend
  obtain rfl : s = s' := eq_of_steps (by omega) (by omega)
  exact ⟨rfl, Nat.add_right_cancel hcolumn, Nat.add_right_cancel hrow⟩

/-- The way back is the way of the mate. -/
theorem eq_mate_of_points (hx : x + 1 < w) (hx' : x' + 1 < w)
    (hstart : s.point w x y = s'.next.point w x' y')
    (hend : s.next.point w x y = s'.point w x' y') : s' = s.mate := by
  obtain ⟨hcolumn, hrow⟩ := point_inj hx hx' hstart
  obtain ⟨hcolumn', hrow'⟩ := point_inj hx hx' hend
  have hcolumns := s.column_mate
  have hrows := s.row_mate
  exact eq_of_steps (by omega) (by omega)

/-- Columns and rows tell whether a side is part of the border. -/
theorem alongBorder_iff (s : Side) (hx : x + 1 < w) :
    AlongBorder w h (s.point w x y) (s.next.point w x y) ↔
      (x + s.column = 0 ∧ x + s.next.column = 0) ∨
      (x + s.column + 1 = w ∧ x + s.next.column + 1 = w) ∨
      (y + s.row = 0 ∧ y + s.next.row = 0) ∨ (y + s.row + 1 = h ∧ y + s.next.row + 1 = h) := by
  have hplace (s : Side) : s.point w x y % w = x + s.column ∧ s.point w x y / w = y + s.row :=
    (rowMajor_iff (s.column_lt hx)).2 rfl
  rw [AlongBorder, (hplace s).1, (hplace s).2, (hplace s.next).1, (hplace s.next).2]

/-- Inside of the grid there is a quad beyond every edge. -/
theorem exists_mate (s : Side) (hx : x + 1 < w) (hy : y + 1 < h)
    (hinside : ¬AlongBorder w h (s.point w x y) (s.next.point w x y)) :
    ∃ x' y', x' + 1 < w ∧ y' + 1 < h ∧ s.mate.point w x' y' = s.next.point w x y ∧
      s.mate.next.point w x' y' = s.point w x y := by
  rw [alongBorder_iff s hx] at hinside
  -- It is enough to find the quad; where its side starts and ends is arithmetic.
  suffices hquad : ∃ x' y', x' + 1 < w ∧ y' + 1 < h ∧
      x' + s.mate.column = x + s.next.column ∧ y' + s.mate.row = y + s.next.row by
    obtain ⟨x', y', hx', hy', hcolumn, hrow⟩ := hquad
    have hcolumn' : x' + s.mate.next.column = x + s.column := by
      have := s.column_mate
      omega
    have hrow' : y' + s.mate.next.row = y + s.row := by
      have := s.row_mate
      omega
    exact ⟨x', y', hx', hy', by rw [point, point, hcolumn, hrow],
      by rw [point, point, hcolumn', hrow']⟩
  cases s <;> simp only [mate, next, column, row] at hinside ⊢
  case left => exact ⟨x - 1, y, by omega⟩
  case right => exact ⟨x + 1, y, by omega⟩
  case top => exact ⟨x, y - 1, by omega⟩
  case bottom => exact ⟨x, y + 1, by omega⟩
  case rising => exact ⟨x, y, by omega⟩
  case falling => exact ⟨x, y, by omega⟩

/-- At the border no other quad has the edge. -/
theorem not_alongBorder (hx : x + 1 < w) (hy : y + 1 < h) (hx' : x' + 1 < w) (hy' : y' + 1 < h)
    (hstart : s.point w x y = s'.next.point w x' y')
    (hend : s.next.point w x y = s'.point w x' y') :
    ¬AlongBorder w h (s.point w x y) (s.next.point w x y) := by
  obtain rfl : s' = s.mate := eq_mate_of_points hx hx' hstart hend
  obtain ⟨hcolumn, hrow⟩ := point_inj hx hx' hend
  rw [alongBorder_iff s hx]
  cases s <;> simp only [mate, next, column, row] at hcolumn hrow ⊢ <;> omega

end Side

/-! ## Triangles of a grid -/

section Grid

variable {t : Tile} {m : Mesh} {i k p q x y : Nat}

/-- The two triangles of a quad come after those of the quads before it. -/
def triangle (w x y half : Nat) : Nat := 2 * (y * (w - 1) + x) + half

/-- The number of a triangle tells which half of a quad it is. -/
theorem half_eq_of_triangle {s s' : Side} {w x' y' : Nat}
    (htriangle : triangle w x y s.half = triangle w x' y' s'.half) : s.half = s'.half := by
  have := s.half_lt
  have := s'.half_lt
  unfold triangle at htriangle
  omega

namespace Complete

variable (hm : Complete t m)

include hm

theorem triangleCount_eq : m.triangleCount = 2 * m.normalCount := by
  rw [triangleCount, hm.size_indices]
  omega

theorem triangle_lt (s : Side) (hx : x + 1 < t.width) (hy : y + 1 < t.height) :
    triangle t.width x y s.half < m.triangleCount := by
  have hhalf := s.half_lt
  have hquad : y * (t.width - 1) + x < Tile.quadCount t.width t.height :=
    rowMajor_lt (Nat.lt_sub_of_add_lt hx) (Nat.lt_sub_of_add_lt hy)
  rw [hm.triangleCount_eq, hm.normalCount, triangle]
  omega

/-- The sides of a quad start in the corners of its triangles. -/
theorem corner?_triangle (s : Side) (hx : x + 1 < t.width) (hy : y + 1 < t.height) :
    m.corner? (triangle t.width x y s.half) s.turn = some (s.point t.width x y) := by
  have hlisted (k : Fin 6) (hk : (k : Nat) = 3 * s.half + s.turn) :
      m.corner? (triangle t.width x y s.half) s.turn
        = some ((quadIndices t.width x y).get k).toNat := by
    have hplace : 3 * triangle t.width x y s.half + s.turn
        = 6 * (y * (t.width - 1) + x) + k := by
      rw [triangle]
      omega
    rw [corner?, hplace, hm.getElem?_indices hx hy k]
    rfl
  have hpoint : (vertex t.width (x + s.column) (y + s.row)).toNat = s.point t.width x y :=
    toNat_vertex t.area_le (s.column_lt hx) (s.row_lt hy)
  rw [← hpoint]
  cases s
  case left => exact hlisted 0 rfl
  case rising => exact hlisted 1 rfl
  case top => exact hlisted 2 rfl
  case bottom => exact hlisted 3 rfl
  case right => exact hlisted 4 rfl
  case falling => exact hlisted 5 rfl

/-- The corner that follows is where the side ends. -/
theorem corner?_next (s : Side) (hx : x + 1 < t.width) (hy : y + 1 < t.height) :
    m.corner? (triangle t.width x y s.half) ((s.turn + 1) % 3)
      = some (s.next.point t.width x y) := by
  rw [← s.half_next, ← s.turn_next]
  exact hm.corner?_triangle s.next hx hy

/-- Every triangle is half of a quad, and a side starts in each of its corners. -/
theorem exists_side (hi : i < m.triangleCount) (hk : k < 3) :
    ∃ (s : Side) (x y : Nat), x + 1 < t.width ∧ y + 1 < t.height ∧
      i = triangle t.width x y s.half ∧ s.turn = k := by
  rw [hm.triangleCount_eq, hm.normalCount] at hi
  obtain ⟨x, y, hx, hy, hquad⟩ := exists_quad (Nat.div_lt_of_lt_mul hi)
  obtain ⟨s, hhalf, hturn⟩ := Side.exists_turn (Nat.mod_lt i Nat.two_pos) hk
  refine ⟨s, x, y, hx, hy, ?_, hturn⟩
  rw [triangle, ← hquad, hhalf]
  exact (Nat.div_add_mod i 2).symm

theorem lt_triangleCount (hk : k < 3) (hcorner : m.corner? i k = some p) :
    i < m.triangleCount := by
  obtain ⟨index, hindex, -⟩ := Option.map_eq_some_iff.1 hcorner
  have hplace : 3 * i + k < m.indices.size := (Array.getElem?_eq_some_iff.1 hindex).1
  rw [hm.size_indices] at hplace
  rw [hm.triangleCount_eq]
  omega

/-- **The ways of the triangles are the sides of the quads.** -/
theorem goes_iff : m.Goes i p q ↔ ∃ (s : Side) (x y : Nat), x + 1 < t.width ∧ y + 1 < t.height ∧
    i = triangle t.width x y s.half ∧ p = s.point t.width x y ∧
    q = s.next.point t.width x y := by
  constructor
  · rintro ⟨k, hk, hp, hq⟩
    obtain ⟨s, x, y, hx, hy, rfl, rfl⟩ := hm.exists_side (hm.lt_triangleCount hk hp) hk
    have hstart := hm.corner?_triangle s hx hy
    have hend := hm.corner?_next s hx hy
    exact ⟨s, x, y, hx, hy, rfl, Option.some.inj (hp.symm.trans hstart),
      Option.some.inj (hq.symm.trans hend)⟩
  · rintro ⟨s, x, y, hx, hy, rfl, rfl, rfl⟩
    exact ⟨s.turn, s.turn_lt, hm.corner?_triangle s hx hy, hm.corner?_next s hx hy⟩

theorem index_lt {index : UInt16} (hindex : index ∈ m.indices) :
    index.toNat < m.positionCount := by
  obtain ⟨n, hn, rfl⟩ := Array.mem_iff_getElem.1 hindex
  have hcorner : m.corner? (n / 3) (n % 3) = some m.indices[n].toNat := by
    simp only [corner?, Nat.div_add_mod, Array.getElem?_eq_getElem hn, Option.map_some]
  have hturn : n % 3 < 3 := Nat.mod_lt n (by decide)
  obtain ⟨s, x, y, hx, hy, hi, hk⟩ := hm.exists_side (hm.lt_triangleCount hturn hcorner) hturn
  have hpoint := hm.corner?_triangle s hx hy
  rw [← hi, hk, hcorner] at hpoint
  rw [Option.some.inj hpoint, hm.positionCount]
  exact rowMajor_lt (s.column_lt hx) (s.row_lt hy)

/-- The three sides of a triangle start in three different points. -/
theorem corners (hi : i < m.triangleCount) :
    ∃ a b c, m.corner? i 0 = some a ∧ m.corner? i 1 = some b ∧ m.corner? i 2 = some c ∧
      a ≠ b ∧ b ≠ c ∧ c ≠ a := by
  obtain ⟨s, x, y, hx, hy, rfl, hturn⟩ := hm.exists_side hi (by decide : 0 < 3)
  have hround : s.next.next.next = s := by cases s <;> rfl
  have ha := hm.corner?_triangle s hx hy
  have hb := hm.corner?_next s hx hy
  have hc := hm.corner?_next s.next hx hy
  rw [s.half_next, s.turn_next] at hc
  rw [hturn] at ha hb hc
  have hca := s.next.next.point_ne_next (y := y) hx
  rw [hround] at hca
  exact ⟨_, _, _, ha, hb, hc, s.point_ne_next hx, s.next.point_ne_next hx, hca⟩

/-- No triangle goes where another one goes already. -/
theorem goes_unique {j : Nat} (hi : m.Goes i p q) (hj : m.Goes j p q) : i = j := by
  obtain ⟨s, x, y, hx, hy, rfl, rfl, rfl⟩ := hm.goes_iff.1 hi
  obtain ⟨s', x', y', hx', hy', rfl, hstart, hend⟩ := hm.goes_iff.1 hj
  obtain ⟨rfl, rfl, rfl⟩ := Side.eq_of_points hx hx' hstart hend
  rfl

/-- Inside of the grid another triangle goes back. -/
theorem exists_back (hi : m.Goes i p q) (hinside : ¬AlongBorder t.width t.height p q) :
    ∃ j, j ≠ i ∧ m.Goes j q p := by
  obtain ⟨s, x, y, hx, hy, rfl, rfl, rfl⟩ := hm.goes_iff.1 hi
  obtain ⟨x', y', hx', hy', hstart, hend⟩ := s.exists_mate hx hy hinside
  refine ⟨triangle t.width x' y' s.mate.half, fun hsame => ?_, ?_⟩
  · exact s.half_mate_ne (half_eq_of_triangle hsame)
  · exact hm.goes_iff.2 ⟨s.mate, x', y', hx', hy', rfl, hstart.symm, hend.symm⟩

/-- At the border no triangle goes back. -/
theorem not_goes_back {j : Nat} (hi : m.Goes i p q) (hborder : AlongBorder t.width t.height p q) :
    ¬m.Goes j q p := by
  obtain ⟨s, x, y, hx, hy, rfl, rfl, rfl⟩ := hm.goes_iff.1 hi
  intro hj
  obtain ⟨s', x', y', hx', hy', -, hend, hstart⟩ := hm.goes_iff.1 hj
  exact Side.not_alongBorder hx hy hx' hy' hstart hend hborder

theorem inside (hi : m.Goes i p q) (hinside : ¬AlongBorder t.width t.height p q) :
    ∃ j, j ≠ i ∧ m.Goes j q p ∧ ∀ l, m.HasEdge l p q ↔ l = i ∨ l = j := by
  obtain ⟨j, hne, hj⟩ := hm.exists_back hi hinside
  refine ⟨j, hne, hj, fun l => ⟨?_, ?_⟩⟩
  · rintro (hl | hl)
    · exact .inl (hm.goes_unique hl hi)
    · exact .inr (hm.goes_unique hl hj)
  · rintro (rfl | rfl)
    · exact .inl hi
    · exact .inr hj

theorem border (hi : m.Goes i p q) (hborder : AlongBorder t.width t.height p q) (l : Nat) :
    m.HasEdge l p q ↔ l = i := by
  constructor
  · rintro (hl | hl)
    · exact hm.goes_unique hl hi
    · exact absurd hl (hm.not_goes_back hi hborder)
  · rintro rfl
    exact .inl hi

/-- Every sample is the corner of a quad, as soon as there are two columns and two rows. -/
theorem covers (hwidth : 2 ≤ t.width) (hheight : 2 ≤ t.height) (hp : p < m.positionCount) :
    ∃ i < m.triangleCount, ∃ k < 3, m.corner? i k = some p := by
  rw [hm.positionCount] at hp
  have hcolumn : p % t.width < t.width := Nat.mod_lt p (by omega)
  have hrow : p / t.width < t.height := Nat.div_lt_of_lt_mul hp
  have hplace : p = p / t.width * t.width + p % t.width := (rowMajor_iff hcolumn).1 ⟨rfl, rfl⟩
  -- In the last column and in the last row it is the far corner of the quad before it.
  obtain ⟨x, hx, hx', hx''⟩ : ∃ x, x + 1 < t.width ∧ x ≤ p % t.width ∧ p % t.width - x ≤ 1 :=
    ⟨min (p % t.width) (t.width - 2), by omega⟩
  obtain ⟨y, hy, hy', hy''⟩ : ∃ y, y + 1 < t.height ∧ y ≤ p / t.width ∧ p / t.width - y ≤ 1 :=
    ⟨min (p / t.width) (t.height - 2), by omega⟩
  obtain ⟨s, hscolumn, hsrow⟩ := Side.exists_start hx'' hy''
  refine ⟨_, hm.triangle_lt s hx hy, s.turn, s.turn_lt, ?_⟩
  rw [hm.corner?_triangle s hx hy, Side.point, hscolumn, hsrow, Nat.add_sub_cancel' hx',
    Nat.add_sub_cancel' hy', ← hplace]

end Complete

end Grid

/-- **Tile meshes are triangulations, turned the same way everywhere.** Every tile has a mesh; its
    indices are the numbers of samples, none of which is cut off, and its triangles fit together on
    the grid of the samples. -/
theorem tile_triangulates (t : Tile) :
    ∃ m, ofTile t = .ok m ∧ m.Triangulates t.width t.height ∧
      ∀ x y, x < t.width → y < t.height →
        (vertex t.width x y).toNat = y * t.width + x := by
  obtain ⟨m, hok, hm⟩ := exists_complete t
  have htriangles : m.triangleCount = 2 * m.normalCount := hm.triangleCount_eq
  refine ⟨m, hok, ?_, fun x y hx hy => toNat_vertex t.area_le hx hy⟩
  exact {
    positionCount := hm.positionCount
    index_lt := fun index hindex => hm.index_lt hindex
    triangleCount := by rw [htriangles, hm.normalCount, Tile.quadCount, Nat.mul_assoc]
    size_indices := by rw [hm.size_indices, htriangles]; omega
    corners := fun i hi => hm.corners hi
    goes_unique := fun i j p q hi hj => hm.goes_unique hi hj
    inside := fun i p q hi hinside => hm.inside hi hinside
    border := fun i p q hi hborder => hm.border hi hborder
    covers := fun hwidth hheight p hp => hm.covers hwidth hheight hp
  }

end Relief.Mesh
