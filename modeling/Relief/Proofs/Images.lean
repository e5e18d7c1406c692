import Relief.Proofs.Places
import Relief.Proofs.Streaming

set_option autoImplicit false

/-! # Images: from rows of bytes back to pixels

An image stream keeps the bytes it is handed, row after row. When all rows have one length, byte
`j` of row `y` has the place `y * length + j` (`getElem?_bytes_feed`), the stream can be finished
without error exactly when it was handed as many rows as its image has
(`finishError?_feed_eq_none_iff`), and the grey pixels that it then decodes to are the samples of
the rows (`ofGrayBytes_feed`). A stream that is closed puts its image into the file that it was
created for (`create_eq_ok`, `close_eq_put`, `content_of_size`). -/

namespace Relief

/-- A sample is what its two bytes are read as. -/
theorem ofBigEndian_bigEndian (q : UInt16) : ofBigEndian (q >>> 8).toUInt8 q.toUInt8 = q := by
  have hq : q.toNat < 65536 := q.toNat_lt
  have hlow : q.toNat % 256 < 2 ^ 8 := by omega
  have hhigh : q.toNat >>> 8 % 256 = q.toNat / 256 := by
    rw [Nat.shiftRight_eq_div_pow]
    omega
  have hshift : (q.toNat / 256) <<< 8 % 65536 = (q.toNat / 256) <<< 8 := by
    rw [Nat.shiftLeft_eq]
    omega
  rw [ofBigEndian, ← UInt16.toNat_inj]
  simp only [UInt16.toNat_or, UInt16.toNat_shiftLeft, UInt8.toNat_toUInt16, UInt16.toNat_toUInt8,
    UInt16.toNat_shiftRight]
  show (q.toNat >>> 8 % 256) <<< 8 % 65536 ||| q.toNat % 256 = q.toNat
  rw [hhigh, hshift, ← Nat.shiftLeft_add_eq_or_of_lt hlow, Nat.shiftLeft_eq]
  omega

namespace ImageStream

open ByteStream (feed feed_concat)
open RowWriter (firstRows)

variable {stream : ImageStream} {length n : Nat}

/-! ## Creating and closing -/

/-- A stream that was created has emptied the file that its path leads to, and its image has sides
    of 32 bits that are not zero. -/
theorem create_eq_ok {fs fs' : Files} {path : String} {size : Size} {pixelBytes : Nat}
    (h : create fs path size pixelBytes = (.ok stream, fs')) :
    ∃ place, fs.create? path = .ok place ∧ stream = ⟨place, size.wrapped, pixelBytes, #[]⟩ ∧
      fs' = fs.put place .partialImage ∧ 0 < size.wrapped.width ∧ 0 < size.wrapped.height := by
  unfold create at h
  split at h
  · cases h
  · next place hplace =>
    dsimp only at h
    split at h
    · cases h
    · next hwidth =>
      split at h
      · cases h
      · next hheight =>
        cases h
        exact ⟨place, hplace, rfl, rfl, Nat.pos_of_ne_zero hwidth, Nat.pos_of_ne_zero hheight⟩

/-- What a stream leaves in its file when it is closed. -/
def content (stream : ImageStream) (pixels : Array UInt8 → Pixels) : FileContent :=
  if stream.isComplete then
    .image ⟨stream.size, pixels (stream.bytes.extract 0 stream.frameBytes)⟩
  else .partialImage

theorem close_eq_put (stream : ImageStream) (pixels : Array UInt8 → Pixels) (fs : Files) :
    stream.close pixels fs = fs.put stream.place (stream.content pixels) := by
  unfold close content
  split <;> rfl

theorem size_of_content {pixels : Array UInt8 → Pixels} {image : Image}
    (h : stream.content pixels = .image image) : image.size = stream.size := by
  unfold content at h
  split at h
  · cases h
    rfl
  · cases h

/-- A stream that has taken exactly one frame leaves it in its file. -/
theorem content_of_size (hsize : stream.bytes.size = stream.frameBytes)
    (pixels : Array UInt8 → Pixels) :
    stream.content pixels = .image ⟨stream.size, pixels stream.bytes⟩ := by
  have hcomplete : stream.isComplete = true := decide_eq_true (Nat.le_of_eq hsize.symm)
  rw [content, if_pos hcomplete, ← hsize, Array.extract_size]

/-! ## The bytes of a stream -/

/-- Rows add to the bytes of a stream and change nothing else of it. -/
theorem feed_eq (rows : List (Array UInt8)) (stream : ImageStream) :
    feed rows stream = { stream with bytes := rows.foldl (· ++ ·) stream.bytes } := by
  induction rows generalizing stream with
  | nil => rfl
  | cons row rest ih => exact ih (stream.push row)

theorem size_bytes_feed {rows : List (Array UInt8)} (hrows : ∀ row ∈ rows, row.size = length)
    (hblank : stream.bytes = #[]) : (feed rows stream).bytes.size = rows.length * length := by
  have hsize : ∀ bytes : Array UInt8,
      (rows.foldl (· ++ ·) bytes).size = bytes.size + rows.length * length := by
    induction rows with
    | nil => simp
    | cons row rest ih =>
        intro bytes
        rw [List.foldl_cons, ih fun row' hrow' => hrows row' (List.mem_cons_of_mem _ hrow'),
          Array.size_append, hrows row (List.mem_cons_self ..), List.length_cons, Nat.succ_mul]
        omega
  rw [feed_eq, hsize, hblank]
  exact Nat.zero_add _

/-- A byte of a row has its place among the bytes of all rows. -/
theorem getElem?_bytes_feed {row : Nat → Array UInt8} (hrow : ∀ y, (row y).size = length)
    (hblank : stream.bytes = #[]) {y j : Nat} (hy : y < n) (hj : j < length) :
    (feed (firstRows row n) stream).bytes[y * length + j]? = (row y)[j]? := by
  induction n with
  | zero => exact absurd hy (Nat.not_lt_zero y)
  | succ n ih =>
      have hsize : (feed (firstRows row n) stream).bytes.size = n * length := by
        rw [size_bytes_feed (RowWriter.size_of_mem_firstRows hrow) hblank,
          RowWriter.length_firstRows]
      rw [RowWriter.firstRows_succ, feed_concat]
      show ((feed (firstRows row n) stream).bytes ++ row n)[y * length + j]? = _
      rw [Array.getElem?_append, hsize]
      rcases Nat.lt_succ_iff_lt_or_eq.1 hy with hlt | rfl
      · have hplace : y * length + j < n * length := by
          calc y * length + j < y * length + length := by omega
            _ = (y + 1) * length := (Nat.succ_mul y length).symm
            _ ≤ n * length := Nat.mul_le_mul_right length hlt
        rw [if_pos hplace]
        exact ih hlt
      · rw [if_neg (by omega), Nat.add_sub_cancel_left]

/-- The same byte, for a pixel that is counted along all rows. -/
theorem getElem?_bytes_feed_pixel {row : Nat → Array UInt8} {size : Size} {stride i k : Nat}
    (hrow : ∀ y, (row y).size = size.width * stride) (hblank : stream.bytes = #[])
    (hi : i < size.area) (hk : k < stride) :
    (feed (firstRows row size.height) stream).bytes[i * stride + k]?
      = (row (i / size.width))[i % size.width * stride + k]? := by
  have hx : i % size.width < size.width := Nat.mod_lt i (Nat.pos_of_lt_mul_right hi)
  have hy : i / size.width < size.height := Nat.div_lt_of_lt_mul hi
  have hi' : i = i / size.width * size.width + i % size.width := (rowMajor_iff hx).1 ⟨rfl, rfl⟩
  have hbyte : i % size.width * stride + k < size.width * stride := by
    calc i % size.width * stride + k < i % size.width * stride + stride := by omega
      _ = (i % size.width + 1) * stride := (Nat.succ_mul _ _).symm
      _ ≤ size.width * stride := Nat.mul_le_mul_right stride hx
  rw [← getElem?_bytes_feed hrow hblank hy hbyte]
  congr 1
  calc i * stride + k = (i / size.width * size.width + i % size.width) * stride + k := by
        rw [← hi']
    _ = i / size.width * (size.width * stride) + (i % size.width * stride + k) := by
        rw [Nat.add_mul, Nat.mul_assoc, Nat.add_assoc]

/-- All rows of an image are as many bytes as its pixels have. -/
theorem size_bytes_feed_firstRows {row : Nat → Array UInt8} {size : Size} {stride : Nat}
    (hrow : ∀ y, (row y).size = size.width * stride) (hblank : stream.bytes = #[]) :
    (feed (firstRows row size.height) stream).bytes.size = size.area * stride := by
  rw [size_bytes_feed (RowWriter.size_of_mem_firstRows hrow) hblank, RowWriter.length_firstRows,
    Size.area, Nat.mul_comm size.width size.height, Nat.mul_assoc]

/-! ## Finishing -/

theorem frameBytes_feed (rows : List (Array UInt8)) (stream : ImageStream) :
    (feed rows stream).frameBytes
      = stream.size.height * (stream.size.width * stream.pixelBytes) := by
  rw [feed_eq]
  show stream.size.width * stream.size.height * stream.pixelBytes = _
  rw [Nat.mul_comm stream.size.width, Nat.mul_assoc]

/-- A stream that was handed no more rows than its image has can be finished when it was handed all
    of them. -/
theorem finishError?_feed_eq_none_iff (hwidth : 0 < stream.size.width)
    (hheight : 0 < stream.size.height) (hpixel : 0 < stream.pixelBytes)
    (hblank : stream.bytes = #[]) {rows : List (Array UInt8)}
    (hrows : ∀ row ∈ rows, row.size = stream.size.width * stream.pixelBytes)
    (hlength : rows.length ≤ stream.size.height) :
    (feed rows stream).finishError? = none ↔ rows.length = stream.size.height := by
  have hrow : 0 < stream.size.width * stream.pixelBytes := Nat.mul_pos hwidth hpixel
  have hbytes := size_bytes_feed hrows hblank
  have hframe := frameBytes_feed rows stream
  generalize stream.size.width * stream.pixelBytes = bytes at hrow hbytes hframe
  have hnone : (feed rows stream).finishError? = none ↔ (feed rows stream).missingBytes = 0 := by
    rw [finishError?]
    split <;> simp_all
  rw [hnone, missingBytes, hbytes, hframe]
  -- Nothing was written, or some rows are missing, or none.
  rcases Nat.eq_zero_or_pos rows.length with hempty | hpos
  · rw [hempty, Nat.zero_mul, if_pos rfl]
    constructor
    · intro hzero
      exact absurd hzero (Nat.ne_of_gt (Nat.mul_pos hheight hrow))
    · intro hzero
      exact absurd hzero (Nat.ne_of_lt hheight)
  · rw [if_neg (Nat.ne_of_gt (Nat.mul_pos hpos hrow))]
    rcases Nat.lt_or_eq_of_le hlength with hlt | heq
    · have hless : rows.length * bytes < stream.size.height * bytes :=
        Nat.mul_lt_mul_of_pos_right hlt hrow
      have hsome : 0 < rows.length * bytes := Nat.mul_pos hpos hrow
      rw [Nat.mod_eq_of_lt hless, Nat.mod_eq_of_lt (by omega)]
      omega
    · rw [heq, Nat.mod_self, Nat.sub_zero, Nat.mod_self]
      simp

/-- A stream that was handed all rows of its image has taken one frame and can be finished. -/
theorem feed_firstRows_complete (stream : ImageStream) (hwidth : 0 < stream.size.width)
    (hheight : 0 < stream.size.height) (hpixel : 0 < stream.pixelBytes)
    (hblank : stream.bytes = #[]) {row : Nat → Array UInt8}
    (hrow : ∀ y, (row y).size = stream.size.width * stream.pixelBytes) :
    (feed (firstRows row stream.size.height) stream).bytes.size
        = (feed (firstRows row stream.size.height) stream).frameBytes ∧
      (feed (firstRows row stream.size.height) stream).finishError? = none := by
  have hlength := RowWriter.length_firstRows row stream.size.height
  have hrows := RowWriter.size_of_mem_firstRows (n := stream.size.height) hrow
  constructor
  · rw [size_bytes_feed hrows hblank, hlength, frameBytes_feed]
  · exact (finishError?_feed_eq_none_iff hwidth hheight hpixel hblank hrows
      (Nat.le_of_eq hlength)).2 hlength

/-! ## Grey pixels -/

/-- The pixels of an image whose rows are samples of sixteen bits, the higher byte first. -/
theorem ofGrayBytes_feed {row : Nat → Array UInt8} {size : Size} {pixels : Array UInt16}
    (hrow : ∀ y, (row y).size = size.width * 2) (hblank : stream.bytes = #[])
    (hpixels : pixels.size = size.area)
    (hsamples : ∀ x y, x < size.width → y < size.height →
      ∃ q, pixels[y * size.width + x]? = some q ∧ (row y)[x * 2]? = some (q >>> 8).toUInt8 ∧
        (row y)[x * 2 + 1]? = some q.toUInt8) :
    Pixels.ofGrayBytes (feed (firstRows row size.height) stream).bytes = .gray16 pixels := by
  have hsize := size_bytes_feed_firstRows hrow hblank
  have hcount : (feed (firstRows row size.height) stream).bytes.size / 2 = pixels.size := by
    rw [hsize, hpixels, Nat.mul_div_cancel _ (by decide : 0 < 2)]
  rw [Pixels.ofGrayBytes]
  congr 1
  refine Array.ext (by rw [Array.size_ofFn, hcount]) fun i hi hi' => ?_
  have harea : i < size.width * size.height := by
    rw [hpixels] at hi'
    exact hi'
  have hwidth : 0 < size.width := Nat.pos_of_lt_mul_right harea
  have hx : i % size.width < size.width := Nat.mod_lt i hwidth
  have hy : i / size.width < size.height := Nat.div_lt_of_lt_mul harea
  have hplace : i / size.width * size.width + i % size.width = i :=
    ((rowMajor_iff hx).1 ⟨rfl, rfl⟩).symm
  obtain ⟨q, hq, hhigh, hlow⟩ := hsamples _ _ hx hy
  rw [hplace, Array.getElem?_eq_getElem hi'] at hq
  -- The two bytes of the pixel are neighbours in its row, and so among all bytes.
  have hbyte : ∀ k < 2, (feed (firstRows row size.height) stream).bytes[2 * i + k]?
      = (row (i / size.width))[i % size.width * 2 + k]? := by
    intro k hk
    rw [Nat.mul_comm 2 i, getElem?_bytes_feed_pixel hrow hblank harea hk]
  have hfirst := (hbyte 0 (by decide)).trans hhigh
  have hsecond := (hbyte 1 (by decide)).trans hlow
  rw [Array.getElem_ofFn, ← ofBigEndian_bigEndian pixels[i], Option.some.inj hq]
  congr 1
  · exact Option.some.inj ((Array.getElem?_eq_getElem _).symm.trans hfirst)
  · exact Option.some.inj ((Array.getElem?_eq_getElem _).symm.trans hsecond)

end ImageStream

/-- A writer that was created has emptied both of its files, the height map first. -/
theorem MapWriter.create_eq_ok {w : MapWriter} {fs fs' : Files} {size : Size}
    {heightPath colorPath : String} (h : create fs size heightPath colorPath = (.ok w, fs')) :
    ∃ heightPlace colorPlace, fs.create? heightPath = .ok heightPlace ∧
      fs.create? colorPath = .ok colorPlace ∧
      w = RowWriter.start size ⟨heightPlace, size.wrapped, 2, #[]⟩
        ⟨colorPlace, size.wrapped, 3, #[]⟩ ∧
      fs' = (fs.put heightPlace .partialImage).put colorPlace .partialImage ∧
      0 < size.wrapped.width ∧ 0 < size.wrapped.height := by
  unfold create at h
  split at h
  · cases h
  · next hheights =>
    split at h
    · cases h
    · next hcolors =>
      cases h
      obtain ⟨heightPlace, hheight, rfl, rfl, hwidth, hpositive⟩ :=
        ImageStream.create_eq_ok hheights
      obtain ⟨colorPlace, hcolor, rfl, rfl, -, -⟩ := ImageStream.create_eq_ok hcolors
      -- The file of the height map, empty by now, has not moved the path of the colour map.
      rw [(Files.sameDirectories_put (Files.rooted_of_create? hheight) _).create?_iff] at hcolor
      exact ⟨heightPlace, colorPlace, hheight, hcolor, rfl, rfl, hwidth, hpositive⟩

/-- What is read at the two paths of a writer after it was closed. The colour map is closed last, so
    it is what is read at both paths if they lead to one place. -/
theorem MapWriter.read?_close {w : MapWriter} {fs fs' : Files} {heightPath colorPath : String}
    (hsame : Files.SameDirectories fs fs') (hheight : fs.create? heightPath = .ok w.heights.place)
    (hcolor : fs.create? colorPath = .ok w.colors.place) :
    (w.close fs').read? heightPath = .ok (if w.heights.place = w.colors.place
      then w.colors.content .rgb8 else w.heights.content .ofGrayBytes) ∧
    (w.close fs').read? colorPath = .ok (w.colors.content .rgb8) := by
  have hclose : w.close fs' = (fs'.put w.heights.place (w.heights.content .ofGrayBytes)).put
      w.colors.place (w.colors.content .rgb8) := by
    rw [RowWriter.close, ImageStream.close_eq_put, ImageStream.close_eq_put]
  -- Nothing that is put makes a directory, so both paths lead where they led before.
  have hclosed : Files.SameDirectories fs (w.close fs') := by
    rw [hclose]
    exact (hsame.put (Files.rooted_of_create? hheight) _).put (Files.rooted_of_create? hcolor) _
  constructor
  · rw [Files.read?_of_create? (hclosed.create?_iff.2 hheight), hclose]
    by_cases hplaces : w.heights.place = w.colors.place
    · rw [if_pos hplaces, hplaces, Files.content?_put_self]
    · rw [if_neg hplaces, Files.content?_put_of_ne _ _ hplaces, Files.content?_put_self]
  · rw [Files.read?_of_create? (hclosed.create?_iff.2 hcolor), hclose, Files.content?_put_self]

end Relief
