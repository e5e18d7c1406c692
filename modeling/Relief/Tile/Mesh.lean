import Relief.Tile.Buffers

set_option autoImplicit false

/-! # Tile meshes: vertices and triangles for drawing a tile

The vertices of a mesh are the positions of the tile's samples followed by the normals of its
quads; its indices, sixteen bits wide, name positions only and come three to a triangle. A quad is
cut along the diagonal from its lower left to its upper right corner, and both halves wind the same
way. -/

namespace Relief

/-- The geometry of one tile. -/
structure Mesh where
  offsetX : Nat
  offsetY : Nat
  vertices : Array Float32
  positionCount : Nat
  normalCount : Nat
  indices : Array UInt16

namespace Mesh

/-- The index of the sample at column `x` of row `y`, cut off to sixteen bits. -/
def vertex (width x y : Nat) : UInt16 := UInt16.ofNat (y * width + x)

/-- The six indices of the quad whose first corner is at column `x` of row `y`. -/
def quadIndices (width x y : Nat) : Vector UInt16 6 :=
  let a := vertex width x y
  let b := vertex width x (y + 1)
  let c := vertex width (x + 1) y
  let d := vertex width (x + 1) (y + 1)
  #v[a, b, c, b, d, c]

/-- The indices of a `width × height` grid of samples, quad by quad along the rows. -/
def gridIndices (width height : Nat) : Vector UInt16 ((height - 1) * ((width - 1) * 6)) :=
  (Vector.range (height - 1)).flatMap fun y =>
    (Vector.range (width - 1)).flatMap fun x => quadIndices width x y

/-- Zeros in the place of all vertices. -/
def blank (t : Tile) : Array Float32 :=
  Array.replicate (t.positionCount + t.normalCount) Binary32.zero

/-- The mesh of a tile: a buffer of zeros is cut in two and both parts are overwritten. -/
def ofTile (t : Tile) : Except RenderError Mesh := do
  let positions ← t.writePositions ((blank t).extract 0 t.positionCount)
  let normals ← t.writeNormals ((blank t).extract t.positionCount (blank t).size)
  return {
    offsetX := t.offsetX
    offsetY := t.offsetY
    vertices := positions ++ normals
    positionCount := t.positionCount / 3
    normalCount := t.normalCount / 3
    indices := (gridIndices t.width t.height).toArray
  }

/-- The positions at the front of the vertices. -/
def positions (m : Mesh) : Array Float32 := m.vertices.extract 0 (m.positionCount * 3)

/-- The normals after the positions. -/
def normals (m : Mesh) : Array Float32 := m.vertices.extract (m.positionCount * 3) m.vertices.size

/-- The number of triangles. -/
def triangleCount (m : Mesh) : Nat := m.indices.size / 3

end Mesh

end Relief
