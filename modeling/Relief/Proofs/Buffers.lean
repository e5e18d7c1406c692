import Relief.Tile.Buffers

set_option autoImplicit false

/-! # Buffers: what is left in a caller's buffer

The loops that write the positions and the normals of a tile go through a grid with strides of their
own and check nothing but the length of the buffer. That is enough: the groups of three places that
they write are the groups of the buffer, each once, so what is left is the same whatever the buffer
held (`fill_eq_content`), and no height is read outside of the samples of the tile
(`content_congr`). A buffer is therefore written whole or left untouched
(`buffers_whole_or_untouched`). -/

namespace Relief.Tile

variable {columns rows : Nat} {value value' : Nat → Nat → Vector Float32 3} {heights : Source}
  {size : Size} {buffer : Array Float32}

/-! ## Grids in an array -/

/-- The vectors at the cells of a grid in one array, row by row. -/
def content (columns rows : Nat) (value : Nat → Nat → Vector Float32 3) : Array Float32 :=
  Strided.fill (Array.replicate (columns * rows * 3) Binary32.zero) (columns * rows)
    (rowMajor columns value)

@[simp]
theorem size_content : (content columns rows value).size = columns * rows * 3 := by
  rw [content, Strided.size_fill, Array.size_replicate]

/-- **Nothing is left of what a buffer held**, if it has the right length. -/
theorem fill_eq_content (hsize : buffer.size = columns * rows * 3) :
    Strided.fill buffer (columns * rows) (rowMajor columns value) = content columns rows value :=
  Strided.fill_eq_fill _ hsize Array.size_replicate

/-- The three places of a cell hold its vector. -/
theorem getElem?_content {x y : Nat} (hx : x < columns) (hy : y < rows) (j : Fin 3) :
    (content columns rows value)[(y * columns + x) * 3 + j]? = some ((value x y).get j) := by
  have hi : y * columns + x < columns * rows := rowMajor_lt hx hy
  obtain ⟨hcolumn, hrow⟩ := (rowMajor_iff hx).2 (rfl : y * columns + x = _)
  have hplace : (y * columns + x) * 3 + j
      < (Array.replicate (columns * rows * 3) Binary32.zero).size := by
    rw [Array.size_replicate]
    omega
  rw [content, Strided.getElem?_fill _ _ hi j.isLt hplace, rowMajor, hcolumn, hrow]

/-- What a grid looks like outside of its cells makes no difference. -/
theorem content_congr (h : ∀ x y, x < columns → y < rows → value x y = value' x y) :
    content columns rows value = content columns rows value' := by
  have hfill : ∀ n ≤ columns * rows, ∀ buffer,
      Strided.fill buffer n (rowMajor columns value)
        = Strided.fill buffer n (rowMajor columns value') := by
    intro n hn buffer
    induction n with
    | zero => rfl
    | succ n ih =>
        have hcolumns : 0 < columns := Nat.pos_of_lt_mul_right hn
        have hcell : rowMajor columns value n = rowMajor columns value' n :=
          h _ _ (Nat.mod_lt n hcolumns) (Nat.div_lt_of_lt_mul hn)
        rw [Strided.fill_succ, Strided.fill_succ, ih (Nat.le_of_succ_le hn), hcell]
  exact hfill _ (Nat.le_refl _) _

/-! ## One write -/

/-- A loop that leaves the same in all buffers of a length overwrites these and no others. -/
theorem overwriteAll?_eq {length : Nat} {loop : Array Float32 → Option (Array Float32)}
    {left : Array Float32} (hloop : ∀ buffer, buffer.size = length → loop buffer = some left)
    (buffer : Array Float32) :
    overwriteAll? length loop buffer
      = if buffer.size = length then some (.ok (), left)
        else some (.error (.bufferSize length buffer.size), buffer) := by
  unfold overwriteAll?
  split
  · next hsize => rw [hloop buffer hsize, Option.map_some]
  · rfl

/-- The positions of a grid of samples. -/
def positions (heights : Source) (size : Size) : Array Float32 :=
  content size.width size.height (positionAt heights size)

/-- The normals of a grid of samples. -/
def normals (heights : Source) (size : Size) : Array Float32 :=
  content (size.width - 1) (size.height - 1) (normalAt heights size)

theorem putPositions?_eq (hcovers : Covers heights size) (buffer : Array Float32) :
    putPositions? heights size buffer
      = if buffer.size = size.area * 3 then some (.ok (), positions heights size)
        else some (.error (.bufferSize (size.area * 3) buffer.size), buffer) :=
  overwriteAll?_eq (fun _ hsize => by
    rw [fillPositions?_eq_fill hcovers hsize]
    exact congrArg some (fill_eq_content hsize)) buffer

theorem putNormals?_eq (hcovers : Covers heights size) (buffer : Array Float32) :
    putNormals? heights size buffer
      = if buffer.size = quadCount size.width size.height * 3 then
          some (.ok (), normals heights size)
        else some (.error (.bufferSize (quadCount size.width size.height * 3) buffer.size),
          buffer) :=
  overwriteAll?_eq (fun _ hsize => by
    rw [fillNormals?_eq_fill hcovers hsize]
    exact congrArg some (fill_eq_content hsize)) buffer

/-! ## What is read -/

/-- The heights of a tile's own samples; nothing else of its store can be read. -/
def own (t : Tile) : Source := fun x y =>
  if x < t.width ∧ y < t.height then t.heightAt? x y else none

theorem own_eq (t : Tile) {x y : Nat} (hx : x < t.width) (hy : y < t.height) :
    t.own x y = t.heightAt? x y :=
  if_pos ⟨hx, hy⟩

theorem heightOr_own (t : Tile) {x y : Nat} (hx : x < t.width) (hy : y < t.height) :
    heightOr t.own x y = heightOr t.heightAt? x y := by
  rw [heightOr, t.own_eq hx hy, heightOr]

theorem covers_own (t : Tile) : Covers t.own t.size := by
  intro x y hx hy
  rw [t.own_eq hx hy]
  exact t.exists_height hx hy

/-- The positions need no sample but the tile's own. -/
theorem positions_own (t : Tile) : positions t.own t.size = positions t.heightAt? t.size := by
  refine content_congr fun x y hx hy => ?_
  rw [positionAt, t.heightOr_own hx hy, positionAt]

/-- The normals need no sample but the tile's own, with both neighbours of a quad's first corner. -/
theorem normals_own (t : Tile) : normals t.own t.size = normals t.heightAt? t.size := by
  refine content_congr fun x y hx hy => ?_
  have hwidth : x + 1 < t.width := Nat.add_lt_of_lt_sub hx
  have hheight : y + 1 < t.height := Nat.add_lt_of_lt_sub hy
  rw [normalAt, t.heightOr_own (Nat.lt_of_succ_lt hwidth) (Nat.lt_of_succ_lt hheight),
    t.heightOr_own hwidth (Nat.lt_of_succ_lt hheight),
    t.heightOr_own (Nat.lt_of_succ_lt hwidth) hheight, normalAt]

/-! ## A tile's buffers -/

theorem writePositions?_eq (t : Tile) (buffer : Array Float32) :
    t.writePositions? buffer
      = if buffer.size = t.positionCount then some (.ok (), positions t.heightAt? t.size)
        else some (.error (.bufferSize t.positionCount buffer.size), buffer) :=
  putPositions?_eq t.covers_heightAt? buffer

theorem writeNormals?_eq (t : Tile) (buffer : Array Float32) :
    t.writeNormals? buffer
      = if buffer.size = t.normalCount then some (.ok (), normals t.heightAt? t.size)
        else some (.error (.bufferSize t.normalCount buffer.size), buffer) :=
  putNormals?_eq t.covers_heightAt? buffer

theorem writePositions_eq (t : Tile) (buffer : Array Float32) :
    t.writePositions buffer
      = if buffer.size = t.positionCount then .ok (positions t.heightAt? t.size)
        else .error (.bufferSize t.positionCount buffer.size) := by
  simp only [writePositions, t.writePositions?_eq buffer]
  split <;> rfl

theorem writeNormals_eq (t : Tile) (buffer : Array Float32) :
    t.writeNormals buffer
      = if buffer.size = t.normalCount then .ok (normals t.heightAt? t.size)
        else .error (.bufferSize t.normalCount buffer.size) := by
  simp only [writeNormals, t.writeNormals?_eq buffer]
  split <;> rfl

theorem writePositions_of_size (t : Tile) (hsize : buffer.size = t.positionCount) :
    t.writePositions buffer = .ok (positions t.heightAt? t.size) := by
  rw [writePositions_eq, if_pos hsize]

theorem writeNormals_of_size (t : Tile) (hsize : buffer.size = t.normalCount) :
    t.writeNormals buffer = .ok (normals t.heightAt? t.size) := by
  rw [writeNormals_eq, if_pos hsize]

/-- A sample's three places among the positions. -/
theorem getElem?_positions (t : Tile) {x y : Nat} (hx : x < t.width) (hy : y < t.height) :
    ∃ h, t.heightAt? x y = some h ∧
      ∀ j : Fin 3, (positions t.heightAt? t.size)[(y * t.width + x) * 3 + j]?
        = some ((positionOf t.size x y h).get j) :=
  ⟨_, t.covers_heightAt?.eq_some hx hy, getElem?_content hx hy⟩

/-- A quad's three places among the normals. -/
theorem getElem?_normals (t : Tile) {x y : Nat} (hx : x + 1 < t.width) (hy : y + 1 < t.height) :
    ∃ h right below, t.heightAt? x y = some h ∧ t.heightAt? (x + 1) y = some right ∧
      t.heightAt? x (y + 1) = some below ∧
      ∀ j : Fin 3, (normals t.heightAt? t.size)[(y * (t.width - 1) + x) * 3 + j]?
        = some ((normalOf t.size h right below).get j) := by
  have hcovers := t.covers_heightAt?
  exact ⟨_, _, _, hcovers.eq_some (Nat.lt_of_succ_lt hx) (Nat.lt_of_succ_lt hy),
    hcovers.eq_some hx (Nat.lt_of_succ_lt hy), hcovers.eq_some (Nat.lt_of_succ_lt hx) hy,
    getElem?_content (Nat.lt_sub_of_add_lt hx) (Nat.lt_sub_of_add_lt hy)⟩

/-- **A buffer is written whole or left untouched.** Whatever a buffer holds, the loops never leave
    it, the store of the tile or the counts of quads, also where a tile is empty or has one column
    or row. A buffer of another length is refused with both lengths and stays; one of the right
    length ends with the same content each time, the points of the samples or the normals of the
    quads at their places. No sample but the tile's own is read: the loops do the same if no other
    one can be. -/
theorem buffers_whole_or_untouched (t : Tile) :
    let positionLength := t.width * t.height * 3
    let normalLength := (t.width - 1) * (t.height - 1) * 3
    (∃ points : Array Float32, points.size = positionLength ∧
      (∀ buffer, t.writePositions? buffer
        = if buffer.size = positionLength then some (.ok (), points)
          else some (.error (.bufferSize positionLength buffer.size), buffer)) ∧
      (∀ buffer, t.writePositions buffer
        = if buffer.size = positionLength then .ok points
          else .error (.bufferSize positionLength buffer.size)) ∧
      (∀ buffer, putPositions? t.own t.size buffer = t.writePositions? buffer) ∧
      ∀ x y, x < t.width → y < t.height → ∃ h, t.heightAt? x y = some h ∧
        ∀ j : Fin 3, points[(y * t.width + x) * 3 + j]?
          = some ((positionOf t.size x y h).get j)) ∧
    (∃ vectors : Array Float32, vectors.size = normalLength ∧
      (∀ buffer, t.writeNormals? buffer
        = if buffer.size = normalLength then some (.ok (), vectors)
          else some (.error (.bufferSize normalLength buffer.size), buffer)) ∧
      (∀ buffer, t.writeNormals buffer
        = if buffer.size = normalLength then .ok vectors
          else .error (.bufferSize normalLength buffer.size)) ∧
      (∀ buffer, putNormals? t.own t.size buffer = t.writeNormals? buffer) ∧
      ∀ x y, x + 1 < t.width → y + 1 < t.height → ∃ h right below,
        t.heightAt? x y = some h ∧ t.heightAt? (x + 1) y = some right ∧
        t.heightAt? x (y + 1) = some below ∧
        ∀ j : Fin 3, vectors[(y * (t.width - 1) + x) * 3 + j]?
          = some ((normalOf t.size h right below).get j)) := by
  intro positionLength normalLength
  constructor
  · refine ⟨positions t.heightAt? t.size, size_content, t.writePositions?_eq, t.writePositions_eq,
      fun buffer => ?_, fun x y hx hy => t.getElem?_positions hx hy⟩
    rw [putPositions?_eq t.covers_own, t.positions_own, t.writePositions?_eq]
    rfl
  · refine ⟨normals t.heightAt? t.size, size_content, t.writeNormals?_eq, t.writeNormals_eq,
      fun buffer => ?_, fun x y hx hy => t.getElem?_normals hx hy⟩
    rw [putNormals?_eq t.covers_own, t.normals_own, t.writeNormals?_eq]
    rfl

end Relief.Tile
