import Relief.Proofs.Buffers
import Relief.Tile.Mesh

set_option autoImplicit false

/-! # Meshes: one grid, enumerated three times

The positions of a mesh go through the samples of its tile, with as many to a row as the tile has
columns; its normals and its indices go through the quads, one fewer to a row. That the three belong
together is not said anywhere in a mesh: it rests on the order in which each was written. Here the
places of a sample and of a quad in each of them are worked out (`Tile.getElem?_positions`,
`Tile.getElem?_normals`, `getElem?_gridIndices`), and with them a normal is found to be the one of
the quad that has its number among the indices (`normals_match_quads`). -/

namespace Relief.Mesh

variable {w h x y : Nat}

/-! ## Indices -/

/-- As long as sixteen bits are enough for the samples, none of their numbers is cut off. -/
theorem toNat_vertex (hfits : w * h ≤ Tile.capacity) (hx : x < w) (hy : y < h) :
    (vertex w x y).toNat = y * w + x := by
  have hplace : y * w + x < Tile.capacity := Nat.lt_of_lt_of_le (rowMajor_lt hx hy) hfits
  rw [vertex, UInt16.toNat_ofNat']
  exact Nat.mod_eq_of_lt hplace

/-- The six indices of a quad stand behind those of the quads before it. -/
theorem getElem?_gridIndices (hx : x + 1 < w) (hy : y + 1 < h) (k : Fin 6) :
    (gridIndices w h).toArray[(y * (w - 1) + x) * 6 + k]? = some ((quadIndices w x y).get k) := by
  have hcolumn : x < w - 1 := Nat.lt_sub_of_add_lt hx
  have hrow : y < h - 1 := Nat.lt_sub_of_add_lt hy
  -- Inside of a row the quads have six places each, and the rows have `(w - 1) * 6` places each.
  have hquad : x * 6 + k < (w - 1) * 6 := by omega
  have hplace : (y * (w - 1) + x) * 6 + k = y * ((w - 1) * 6) + (x * 6 + k) := by
    rw [Nat.add_mul, Nat.mul_assoc, Nat.add_assoc]
  obtain ⟨hinRow, hrowOf⟩ := (rowMajor_iff hquad).2 hplace
  obtain ⟨hinQuad, hquadOf⟩ := (rowMajor_iff k.isLt).2 (rfl : x * 6 + k = _)
  have hinside : (y * (w - 1) + x) * 6 + k < (h - 1) * ((w - 1) * 6) := by
    rw [hplace, Nat.mul_comm (h - 1)]
    exact rowMajor_lt hquad hrow
  rw [Vector.getElem?_toArray, gridIndices, Vector.getElem?_flatMap, dif_pos hinside]
  simp only [Vector.getElem_flatMap, Vector.getElem_range, hinRow, hrowOf, hinQuad, hquadOf]
  rfl

/-- Two quads beside each other, with an edge in common that is passed in both directions. -/
example : (gridIndices 3 2).toList = [0, 3, 1, 3, 4, 1, 1, 4, 2, 4, 5, 2] := by decide

theorem size_gridIndices (w h : Nat) :
    (gridIndices w h).toArray.size = 6 * Tile.quadCount w h := by
  rw [Vector.size_toArray, Tile.quadCount, ← Nat.mul_assoc, Nat.mul_comm (h - 1), Nat.mul_comm]

/-- Every quad has its first corner in a column and a row that are not the last ones. -/
theorem exists_quad {q : Nat} (hq : q < Tile.quadCount w h) :
    ∃ x y, x + 1 < w ∧ y + 1 < h ∧ q = y * (w - 1) + x := by
  have hcolumn : q % (w - 1) < w - 1 := Nat.mod_lt q (Nat.pos_of_lt_mul_right hq)
  have hrow : q / (w - 1) < h - 1 := Nat.div_lt_of_lt_mul hq
  exact ⟨_, _, Nat.add_lt_of_lt_sub hcolumn, Nat.add_lt_of_lt_sub hrow,
    (rowMajor_iff hcolumn).1 ⟨rfl, rfl⟩⟩

/-! ## The mesh of a tile -/

/-- The height that is stored in a position. -/
def heightOf? (m : Mesh) (i : Nat) : Option Float32 := m.positions[3 * i + 2]?

/-- A mesh that is complete: its vertices are the points of the samples of a tile and the normals of
    its quads, and its indices go through the quads. -/
structure Complete (t : Tile) (m : Mesh) : Prop where
  vertices : m.vertices
    = Tile.positions t.heightAt? t.size ++ Tile.normals t.heightAt? t.size
  positionCount : m.positionCount = t.width * t.height
  normalCount : m.normalCount = Tile.quadCount t.width t.height
  indices : m.indices = (gridIndices t.width t.height).toArray

/-- **Every tile has a mesh, and it is complete.** -/
theorem exists_complete (t : Tile) : ∃ m, ofTile t = .ok m ∧ Complete t m := by
  -- Both parts of the blank buffer have the length that is asked for.
  have hblank : (blank t).size = t.positionCount + t.normalCount := Array.size_replicate
  have hfront : ((blank t).extract 0 t.positionCount).size = t.positionCount := by
    rw [Array.size_extract]
    omega
  have hback : ((blank t).extract t.positionCount (blank t).size).size = t.normalCount := by
    rw [Array.size_extract]
    omega
  have hpoints : t.positionCount / 3 = t.width * t.height := Nat.mul_div_cancel _ (by decide)
  have hquads : t.normalCount / 3 = Tile.quadCount t.width t.height :=
    Nat.mul_div_cancel _ (by decide)
  refine ⟨⟨t.offsetX, t.offsetY,
    Tile.positions t.heightAt? t.size ++ Tile.normals t.heightAt? t.size, t.positionCount / 3,
    t.normalCount / 3, (gridIndices t.width t.height).toArray⟩, ?_, rfl, hpoints, hquads, rfl⟩
  simp only [ofTile, t.writePositions_of_size hfront, t.writeNormals_of_size hback]
  rfl

namespace Complete

variable {t : Tile} {m : Mesh} (hm : Complete t m)

include hm

/-- The vertices are cut where the positions end. -/
theorem positionCount_mul : m.positionCount * 3 = (Tile.positions t.heightAt? t.size).size := by
  rw [hm.positionCount]
  exact Tile.size_content.symm

/-- The positions are where they are looked for. -/
theorem positions_eq : m.positions = Tile.positions t.heightAt? t.size := by
  rw [positions, hm.positionCount_mul, hm.vertices, Array.extract_append_left, Array.extract_size]

/-- The normals are where they are looked for. -/
theorem normals_eq : m.normals = Tile.normals t.heightAt? t.size := by
  rw [normals, hm.positionCount_mul, hm.vertices, Array.size_append, Array.extract_append_right,
    Array.extract_size]

theorem size_positions : m.positions.size = 3 * m.positionCount := by
  rw [hm.positions_eq, ← hm.positionCount_mul, Nat.mul_comm]

theorem size_normals : m.normals.size = 3 * m.normalCount := by
  rw [hm.normals_eq, hm.normalCount, Nat.mul_comm 3]
  exact Tile.size_content

theorem size_indices : m.indices.size = 6 * m.normalCount := by
  rw [hm.indices, hm.normalCount, size_gridIndices]

/-- The point of a sample has the number of the sample. -/
theorem getElem?_positions (hx : x < t.width) (hy : y < t.height) :
    ∃ height, t.heightAt? x y = some height ∧
      ∀ j : Fin 3, m.positions[3 * (y * t.width + x) + j]?
        = some ((Tile.positionOf t.size x y height).get j) := by
  rw [hm.positions_eq, Nat.mul_comm 3]
  exact t.getElem?_positions hx hy

/-- The normal of a quad has the number of the quad. -/
theorem getElem?_normals (hx : x + 1 < t.width) (hy : y + 1 < t.height) :
    ∃ height right below, t.heightAt? x y = some height ∧ t.heightAt? (x + 1) y = some right ∧
      t.heightAt? x (y + 1) = some below ∧
      ∀ j : Fin 3, m.normals[3 * (y * (t.width - 1) + x) + j]?
        = some ((Tile.normalOf t.size height right below).get j) := by
  rw [hm.normals_eq, Nat.mul_comm 3]
  exact t.getElem?_normals hx hy

/-- The indices of a quad have the number of the quad. -/
theorem getElem?_indices (hx : x + 1 < t.width) (hy : y + 1 < t.height) (k : Fin 6) :
    m.indices[6 * (y * (t.width - 1) + x) + k]? = some ((quadIndices t.width x y).get k) := by
  rw [hm.indices, Nat.mul_comm 6]
  exact getElem?_gridIndices hx hy k

/-- An index leads to the height of its sample. -/
theorem heightOf?_vertex (hx : x < t.width) (hy : y < t.height) :
    m.heightOf? (vertex t.width x y).toNat = t.heightAt? x y := by
  obtain ⟨height, hheight, hposition⟩ := hm.getElem?_positions hx hy
  rw [heightOf?, toNat_vertex t.area_le hx hy, hheight]
  exact hposition 2

end Complete

/-! ## Normals and quads -/

/-- **The normals belong to the quads of the indices.** A mesh is made for every tile; its positions
    and its normals make up its vertices, and the position with the number of a sample is the centre
    of the sample with its height. There are as many normals as quads among the indices, and the
    normal with the number of a quad is made of the heights that are stored in the positions which
    the first three indices of this quad name. -/
theorem normals_match_quads (t : Tile) :
    let dx := Binary32.one / Binary32.ofSize t.width
    let dy := Binary32.one / Binary32.ofSize t.height
    ∃ m, ofTile t = .ok m ∧
      (m.vertices = m.positions ++ m.normals ∧ m.positionCount = t.width * t.height ∧
        m.positions.size = 3 * m.positionCount ∧ m.normals.size = 3 * m.normalCount) ∧
      (∀ x y, x < t.width → y < t.height → ∃ height, t.heightAt? x y = some height ∧
        let i := y * t.width + x
        m.positions[3 * i]?
          = some ((Binary32.ofSize x + Binary32.half) / Binary32.ofSize t.width) ∧
        m.positions[3 * i + 1]?
          = some ((Binary32.ofSize y + Binary32.half) / Binary32.ofSize t.height) ∧
        m.positions[3 * i + 2]? = some height) ∧
      m.indices.size = 6 * m.normalCount ∧
      ∀ q < m.normalCount, ∃ (a b c d : UInt16) (atA atB atC : Float32),
        (m.indices[6 * q]? = some a ∧ m.indices[6 * q + 1]? = some b ∧
          m.indices[6 * q + 2]? = some c) ∧
        (m.indices[6 * q + 3]? = some b ∧ m.indices[6 * q + 4]? = some d ∧
          m.indices[6 * q + 5]? = some c) ∧
        (m.heightOf? a.toNat = some atA ∧ m.heightOf? b.toNat = some atB ∧
          m.heightOf? c.toNat = some atC) ∧
        m.normals[3 * q]? = some (dy * (atC - atA)) ∧
        m.normals[3 * q + 1]? = some (dx * (atB - atA)) ∧
        m.normals[3 * q + 2]? = some (-(dx * dy)) := by
  intro dx dy
  obtain ⟨m, hok, hm⟩ := exists_complete t
  refine ⟨m, hok, ⟨?_, hm.positionCount, hm.size_positions, hm.size_normals⟩, fun x y hx hy => ?_,
    hm.size_indices, fun q hq => ?_⟩
  · rw [hm.vertices, hm.positions_eq, hm.normals_eq]
  · obtain ⟨height, hheight, hposition⟩ := hm.getElem?_positions hx hy
    exact ⟨height, hheight, hposition 0, hposition 1, hposition 2⟩
  · rw [hm.normalCount] at hq
    obtain ⟨x, y, hx, hy, rfl⟩ := exists_quad hq
    have hindex := hm.getElem?_indices hx hy
    obtain ⟨height, right, below, hheight, hright, hbelow, hnormal⟩ := hm.getElem?_normals hx hy
    have hfirst := hm.heightOf?_vertex (Nat.lt_of_succ_lt hx) (Nat.lt_of_succ_lt hy)
    have hsecond := hm.heightOf?_vertex (Nat.lt_of_succ_lt hx) hy
    have hthird := hm.heightOf?_vertex hx (Nat.lt_of_succ_lt hy)
    exact ⟨vertex t.width x y, vertex t.width x (y + 1), vertex t.width (x + 1) y,
      vertex t.width (x + 1) (y + 1), height, below, right,
      ⟨hindex 0, hindex 1, hindex 2⟩, ⟨hindex 3, hindex 4, hindex 5⟩,
      ⟨hfirst.trans hheight, hsecond.trans hbelow, hthird.trans hright⟩,
      hnormal 0, hnormal 1, hnormal 2⟩

end Relief.Mesh
