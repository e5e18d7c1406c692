import Relief.Proofs.Images

set_option autoImplicit false

/-! # Refusals: a row writer whose calls come in any order

A caller may hand rows of any length to a row writer and set its range in between. The rows before
the first one of a wrong length are taken, each with the range that is in force then (`taken`), and
go to both streams (`follow_taken`). The first row of a wrong length is refused, and nothing that
comes after it changes what was taken (`follow_of_fault`) or what is reported in the end
(`follow_keeps_first_fault`). -/

namespace Relief

/-! ## Pixels and streams -/

/-- The `i`-th pixel of a row, black where the row has none. -/
def Pixel.at (row : Array Float32) (i : Nat) : Pixel :=
  if h : i < row.size / 4 then Pixel.ofRow row i h
  else ⟨Binary32.zero, Binary32.zero, Binary32.zero, Binary32.zero⟩

theorem Pixel.ofRow_eq_at (row : Array Float32) (i : Nat) (h : i < row.size / 4) :
    Pixel.ofRow row i h = Pixel.at row i := (dif_pos h).symm

theorem Pixel.getElem?_of_at {row : Array Float32} {i : Nat} (hi : i < row.size / 4) :
    row[i * 4]? = some (Pixel.at row i).height ∧ row[i * 4 + 1]? = some (Pixel.at row i).red ∧
      row[i * 4 + 2]? = some (Pixel.at row i).green ∧
      row[i * 4 + 3]? = some (Pixel.at row i).blue := by
  rw [Pixel.at, dif_pos hi]
  exact ⟨Array.getElem?_eq_getElem _, Array.getElem?_eq_getElem _, Array.getElem?_eq_getElem _,
    Array.getElem?_eq_getElem _⟩

namespace ByteStream

variable {ε : Type} [ByteStream ε]

/-- Whether a stream that takes no more than `n` rows of the given length can be finished exactly
    when it was handed all of them. -/
def Completes (length n : Nat) (stream : ε) : Prop :=
  ∀ rows : List (Array UInt8), (∀ row ∈ rows, row.size = length) → rows.length ≤ n →
    (finishError? (feed rows stream) = none ↔ rows.length = n)

end ByteStream

/-- A file that an image is begun in is completed by the rows of the image. -/
theorem ImageStream.completes (stream : ImageStream) (hwidth : 0 < stream.size.width)
    (hheight : 0 < stream.size.height) (hpixel : 0 < stream.pixelBytes)
    (hblank : stream.bytes = #[]) :
    ByteStream.Completes (stream.size.width * stream.pixelBytes) stream.size.height stream := by
  intro rows hrows hlength
  exact finishError?_feed_eq_none_iff hwidth hheight hpixel hblank hrows hlength

namespace RowWriter

variable {ε : Type}

open ByteStream (feed Accepts Completes)

theorem setRange_of_lt {min max : Float32} (h : min < max) (w : RowWriter ε) :
    w.setRange min max = .ok { w with range := ⟨min, max⟩ } := by
  have hvalid : HeightRange.isValid ⟨min, max⟩ = true := decide_eq_true h
  have hvalidate : HeightRange.validate ⟨min, max⟩ = .ok () := by
    rw [HeightRange.validate, if_pos hvalid]
  exact setRange_of_validate hvalidate w

theorem setRange_of_not_lt {min max : Float32} (h : ¬ min < max) (w : RowWriter ε) :
    w.setRange min max = .error (.invalidRange min max) := by
  have hvalid : ¬ HeightRange.isValid ⟨min, max⟩ = true := by
    intro hvalid
    exact h (of_decide_eq_true hvalid)
  have hvalidate : HeightRange.validate ⟨min, max⟩ = .error (.invalidRange min max) := by
    rw [HeightRange.validate, if_neg hvalid]
  simp only [setRange, HeightRange.ofBounds, hvalidate]

variable [ByteStream ε] {w : RowWriter ε} {length n : Nat} {values : Array Float32}

/-! ## Calls -/

/-- What a caller can ask of a row writer before it is finished. -/
inductive Call where
  | row (values : Array Float32)
  | setRange (min max : Float32)

def Call.row? : Call → Option (Array Float32)
  | row values => some values
  | setRange _ _ => none

/-- The rows of calls, in their order. -/
def rows (calls : List Call) : List (Array Float32) := calls.filterMap Call.row?

def serve (w : RowWriter ε) : Call → RowWriter ε
  | .row values => w.writeRow values
  | .setRange min max =>
    match w.setRange min max with
    | .ok w => w
    | .error _ => w

def follow (w : RowWriter ε) (calls : List Call) : RowWriter ε := calls.foldl serve w

/-- The rows before the first one of another length, each with the range in force then. -/
def taken (length : Nat) : HeightRange → List Call → List (HeightRange × Array Float32)
  | _, [] => []
  | range, .setRange min max :: calls =>
    taken length (if min < max then ⟨min, max⟩ else range) calls
  | range, .row values :: calls =>
    if values.size = length then (range, values) :: taken length range calls else []

@[simp]
theorem rows_row (values : Array Float32) (calls : List Call) :
    rows (.row values :: calls) = values :: rows calls := rfl

@[simp]
theorem serve_row (w : RowWriter ε) (values : Array Float32) :
    w.serve (.row values) = w.writeRow values := rfl

@[simp]
theorem follow_cons (w : RowWriter ε) (call : Call) (rest : List Call) :
    w.follow (call :: rest) = (w.serve call).follow rest := rfl

theorem follow_append (w : RowWriter ε) (before after : List Call) :
    w.follow (before ++ after) = (w.follow before).follow after := List.foldl_append

theorem map_taken (length : Nat) (range : HeightRange) (calls : List Call) :
    (taken length range calls).map Prod.snd = (rows calls).takeWhile (·.size == length) := by
  induction calls generalizing range with
  | nil => rfl
  | cons call rest ih =>
      cases call with
      | setRange min max => exact ih _
      | row values =>
          rw [rows_row, taken, List.takeWhile_cons]
          by_cases hsize : values.size = length
          · rw [if_pos hsize, if_pos (beq_iff_eq.2 hsize), List.map_cons, ih]
          · rw [if_neg hsize, if_neg (fun h => hsize (beq_iff_eq.1 h))]
            rfl

theorem length_taken (length : Nat) (range : HeightRange) (calls : List Call) :
    (taken length range calls).length
      = ((rows calls).takeWhile (·.size == length)).length := by
  rw [← map_taken length range, List.length_map]

/-! ## One call -/

theorem serve_setRange (w : RowWriter ε) (min max : Float32) :
    w.serve (.setRange min max)
      = { w with range := if min < max then ⟨min, max⟩ else w.range } := by
  rw [serve]
  by_cases h : min < max
  · rw [setRange_of_lt h, if_pos h]
  · rw [setRange_of_not_lt h, if_neg h]

theorem writeRow_of_size_ne (hfault : w.fault = none) (hsize : values.size ≠ w.size.width * 4) :
    w.writeRow values = { w with
      fault := some (.rowLength (w.size.width * 4) values.size) } := by
  simp only [writeRow, hfault, Option.isSome_none, Bool.false_eq_true, if_false, tryRow,
    if_neg hsize]

/-- A row does not change the size of a writer or its range, whatever becomes of it. -/
theorem writeRow_settings (w : RowWriter ε) (values : Array Float32) :
    (w.writeRow values).size = w.size ∧ (w.writeRow values).range = w.range := by
  have hput : (w.putRow values).size = w.size ∧ (w.putRow values).range = w.range := by
    simp only [putRow, Pixel.ofRow_eq_at]
    rw [fold_putPixel]
    exact ⟨rfl, rfl⟩
  have hflush : ∀ w' : RowWriter ε,
      w'.flush.2.size = w'.size ∧ w'.flush.2.range = w'.range := by
    intro w'
    unfold flush
    split
    · exact ⟨rfl, rfl⟩
    · split <;> exact ⟨rfl, rfl⟩
  have htry : (w.tryRow values).2.size = w.size ∧ (w.tryRow values).2.range = w.range := by
    unfold tryRow
    split
    · exact ⟨(hflush _).1.trans hput.1, (hflush _).2.trans hput.2⟩
    · exact ⟨rfl, rfl⟩
  unfold writeRow
  split
  · exact ⟨rfl, rfl⟩
  · split
    · next heq => rwa [heq] at htry
    · next heq => rwa [heq] at htry

/-! ## After a refusal -/

/-- **A writer that has refused a row takes nothing more**: only its range can still change. -/
theorem follow_of_fault (hfault : w.fault.isSome = true) (calls : List Call) :
    ∃ range, w.follow calls = { w with range := range } := by
  induction calls generalizing w with
  | nil => exact ⟨w.range, rfl⟩
  | cons call rest ih =>
      rw [follow_cons]
      cases call with
      | row values =>
          rw [serve_row, writeRow_of_fault hfault]
          exact ih hfault
      | setRange min max =>
          rw [serve_setRange]
          obtain ⟨range, hrange⟩ :=
            ih (w := { w with range := if min < max then ⟨min, max⟩ else w.range }) hfault
          exact ⟨range, hrange⟩

/-- A row of a wrong length ends the taking of rows, whatever came before it. -/
theorem follow_row_of_size_ne (hsize : values.size ≠ w.size.width * 4) (after : List Call) :
    (w.follow (.row values :: after)).rowsWritten = w.rowsWritten ∧
      (w.follow (.row values :: after)).heights = w.heights ∧
      (w.follow (.row values :: after)).colors = w.colors ∧
      (w.fault = none → (w.follow (.row values :: after)).fault
        = some (.rowLength (w.size.width * 4) values.size)) := by
  rw [follow_cons, serve_row]
  cases hfault : w.fault with
  | some err =>
      have hsome : w.fault.isSome = true := by rw [hfault, Option.isSome_some]
      obtain ⟨range, hrange⟩ := follow_of_fault hsome after
      rw [writeRow_of_fault hsome, hrange]
      exact ⟨rfl, rfl, rfl, nofun⟩
  | none =>
      have hrefused := writeRow_of_size_ne hfault hsize
      have hsome : (w.writeRow values).fault.isSome = true := by rw [hrefused, Option.isSome_some]
      obtain ⟨range, hrange⟩ := follow_of_fault hsome after
      rw [hrange, hrefused]
      exact ⟨rfl, rfl, rfl, fun _ => rfl⟩

/-! ## The rows that are taken -/

/-- A writer that can take rows: its buffers have the right lengths, and it has refused none. -/
structure Ready (w : RowWriter ε) : Prop where
  heightRow : w.heightRow.size = w.size.width * 2
  colorRow : w.colorRow.size = w.size.width * 3
  fault : w.fault = none

/-- The bytes of taken rows in the height map. -/
def heightRows (width : Nat) (rows : List (HeightRange × Array Float32)) : List (Array UInt8) :=
  rows.map fun row => heightBytes row.1 width (Pixel.at row.2)

def colorRows (width : Nat) (rows : List (HeightRange × Array Float32)) : List (Array UInt8) :=
  rows.map fun row => colorBytes width (Pixel.at row.2)

/-- What a writer has become when it was handed rows that it took. -/
structure Took (w : RowWriter ε) (rows : List (HeightRange × Array Float32)) (w' : RowWriter ε) :
    Prop where
  heights : w'.heights = feed (heightRows w.size.width rows) w.heights
  colors : w'.colors = feed (colorRows w.size.width rows) w.colors
  rowsWritten : w'.rowsWritten = w.rowsWritten + rows.length

theorem Took.trans {w' w'' : RowWriter ε} {before after : List (HeightRange × Array Float32)}
    (h : Took w before w') (hsize : w'.size = w.size) (h' : Took w' after w'') :
    Took w (before ++ after) w'' := by
  refine ⟨?_, ?_, ?_⟩
  · rw [h'.heights, h.heights, hsize, heightRows, heightRows, heightRows, List.map_append]
    exact List.foldl_append.symm
  · rw [h'.colors, h.colors, hsize, colorRows, colorRows, colorRows, List.map_append]
    exact List.foldl_append.symm
  · rw [h'.rowsWritten, h.rowsWritten, List.length_append, Nat.add_assoc]

theorem Ready.writeRow (hw : w.Ready) (hsize : values.size = w.size.width * 4)
    (hheights : Accepts (w.size.width * 2) (n + 1) w.heights)
    (hcolors : Accepts (w.size.width * 3) (n + 1) w.colors) :
    (w.writeRow values).Ready ∧ Took w [(w.range, values)] (w.writeRow values) ∧
      Accepts (w.size.width * 2) n (w.writeRow values).heights ∧
      Accepts (w.size.width * 3) n (w.writeRow values).colors := by
  have hheightSize := size_heightBytes w.range w.size.width (Pixel.at values)
  have hcolorSize := size_colorBytes w.size.width (Pixel.at values)
  obtain ⟨hheightOk, hheightRest⟩ := hheights _ hheightSize
  obtain ⟨hcolorOk, hcolorRest⟩ := hcolors _ hcolorSize
  rw [writeRow_of_ok hw.fault hsize (Pixel.ofRow_eq_at values) hw.heightRow hw.colorRow
    (Prod.ext hheightOk rfl) (Prod.ext hcolorOk rfl)]
  exact ⟨⟨hheightSize, hcolorSize, hw.fault⟩, ⟨rfl, rfl, rfl⟩, hheightRest, hcolorRest⟩

/-- **Rows are taken up to the first one of a wrong length**, which is reported. -/
theorem follow_taken (hw : w.Ready) {calls : List Call}
    (hheights : Accepts (w.size.width * 2) n w.heights)
    (hcolors : Accepts (w.size.width * 3) n w.colors)
    (hn : (taken (w.size.width * 4) w.range calls).length ≤ n) :
    Took w (taken (w.size.width * 4) w.range calls) (w.follow calls) ∧
      (w.follow calls).fault = ((rows calls).find? (·.size != w.size.width * 4)).map
        fun row => .rowLength (w.size.width * 4) row.size := by
  induction calls generalizing w n with
  | nil => exact ⟨⟨rfl, rfl, rfl⟩, hw.fault⟩
  | cons call rest ih =>
      cases call with
      | setRange min max =>
          have hready : Ready { w with range := if min < max then ⟨min, max⟩ else w.range } :=
            ⟨hw.heightRow, hw.colorRow, hw.fault⟩
          obtain ⟨htook, hfault⟩ := ih hready hheights hcolors hn
          rw [follow_cons, serve_setRange]
          exact ⟨⟨htook.heights, htook.colors, htook.rowsWritten⟩, hfault⟩
      | row values =>
          rw [rows_row, List.find?_cons]
          rw [taken] at hn ⊢
          by_cases hsize : values.size = w.size.width * 4
          · -- The streams take this row, and one less after it.
            rw [if_pos hsize, List.length_cons] at hn
            obtain ⟨left, rfl⟩ : ∃ left, n = left + 1 := ⟨n - 1, by omega⟩
            obtain ⟨hready, htook, hheights', hcolors'⟩ := hw.writeRow hsize hheights hcolors
            obtain ⟨hsame, hrange⟩ := writeRow_settings w values
            rw [← hsame] at hheights' hcolors'
            have hrest := ih hready hheights' hcolors'
              (by rw [hsame, hrange]; exact Nat.le_of_succ_le_succ hn)
            have hmatch : (values.size != w.size.width * 4) = false := by
              rw [hsize, bne_self_eq_false]
            rw [hsame, hrange] at hrest
            rw [if_pos hsize, hmatch]
            exact ⟨htook.trans hsame hrest.1, hrest.2⟩
          · have hmatch : (values.size != w.size.width * 4) = true := bne_iff_ne.2 hsize
            obtain ⟨hrows, hheights', hcolors', hfault⟩ := follow_row_of_size_ne hsize rest
            rw [if_neg hsize, hmatch]
            exact ⟨⟨hheights', hcolors', hrows⟩, hfault hw.fault⟩

/-! ## Any calls -/

theorem size_follow (w : RowWriter ε) (calls : List Call) : (w.follow calls).size = w.size := by
  induction calls generalizing w with
  | nil => rfl
  | cons call rest ih =>
      rw [follow_cons, ih]
      cases call with
      | row values => exact (writeRow_settings w values).1
      | setRange min max => rw [serve_setRange]

/-- A row of the right length is taken with the range that is in force when it comes. -/
theorem getElem?_taken (w : RowWriter ε) {before after : List Call}
    (hbefore : ∀ row ∈ rows before, row.size = length) (hsize : values.size = length) :
    (taken length w.range (before ++ .row values :: after))[(rows before).length]?
      = some ((w.follow before).range, values) := by
  induction before generalizing w with
  | nil =>
      rw [List.nil_append, taken, if_pos hsize]
      rfl
  | cons call rest ih =>
      rw [List.cons_append, follow_cons]
      cases call with
      | row values' =>
          rw [rows_row] at hbefore ⊢
          have hfirst : values'.size = length := hbefore values' (List.mem_cons_self ..)
          have hrest := ih (w.writeRow values') fun row hrow =>
            hbefore row (List.mem_cons_of_mem _ hrow)
          rw [(writeRow_settings w values').2] at hrest
          rw [taken, if_pos hfirst, List.length_cons, List.getElem?_cons_succ]
          exact hrest
      | setRange min max =>
          have hrest := ih (w.serve (.setRange min max)) hbefore
          rw [serve_setRange] at hrest ⊢
          exact hrest

theorem result_of_fault {err : Error} (hfault : w.fault = some err) : w.result = .error err := by
  simp only [result, hfault]

/-- A writer that has refused no row is finished without failure if its streams are. -/
theorem result_eq_ok_iff (hfault : w.fault = none) : w.result = .ok () ↔
    ByteStream.finishError? w.heights = none ∧ ByteStream.finishError? w.colors = none := by
  simp only [result, hfault]
  cases ByteStream.finishError? w.heights with
  | some err => simp
  | none =>
      cases ByteStream.finishError? w.colors with
      | some err => simp
      | none => simp

theorem getElem?_bytes_of_size (range : HeightRange) {width x : Nat}
    (hsize : values.size = width * 4) (hx : x < width) :
    (∃ h, values[x * 4]? = some h ∧
      let q := range.quantize h
      (heightBytes range width (Pixel.at values))[x * 2]? = some (q >>> 8).toUInt8 ∧
        (heightBytes range width (Pixel.at values))[x * 2 + 1]? = some q.toUInt8) ∧
    ∀ j : Fin 3, ∃ channel, values[x * 4 + (1 + j.val)]? = some channel ∧
      (colorBytes width (Pixel.at values))[x * 3 + j.val]? = some (Binary32.toByte channel) := by
  have hpixel : x < values.size / 4 := by omega
  obtain ⟨hheight, hred, hgreen, hblue⟩ := Pixel.getElem?_of_at hpixel
  refine ⟨⟨_, hheight, ?_, ?_⟩, fun j => ?_⟩
  · exact getElem?_heightBytes range (Pixel.at values) hx (j := 0) (by decide)
  · exact getElem?_heightBytes range (Pixel.at values) hx (j := 1) (by decide)
  · have hbyte := getElem?_colorBytes (Pixel.at values) hx j.isLt
    match j with
    | 0 => exact ⟨_, hred, hbyte⟩
    | 1 => exact ⟨_, hgreen, hbyte⟩
    | 2 => exact ⟨_, hblue, hbyte⟩

/-- **A row writer keeps whole rows and its first refusal.** Whatever is called in whatever order,
    the rows before the first one of a wrong length are counted and go to both streams, the heights
    of each by the range that is in force when it comes. A row of a wrong length, and what comes
    after it, changes neither the count nor a stream. A range is refused exactly when its upper
    bound is not greater, and then nothing changes. In the end the length of the first wrong row is
    reported; without one, the writer can be finished exactly when it was handed all rows of its
    images. -/
theorem follow_keeps_first_fault {size : Size} {heightStream colorStream : ε}
    (hheightStream : Accepts (size.width * 2) size.height heightStream)
    (hcolorStream : Accepts (size.width * 3) size.height colorStream)
    (hheightEnd : Completes (size.width * 2) size.height heightStream)
    (hcolorEnd : Completes (size.width * 3) size.height colorStream) {calls : List Call}
    (hcalls : ((rows calls).takeWhile (·.size == size.width * 4)).length ≤ size.height) :
    let w₀ := start size heightStream colorStream
    let w := w₀.follow calls
    let good := (rows calls).takeWhile (·.size == size.width * 4)
    let wrong? := (rows calls).find? (·.size != size.width * 4)
    w.rowsWritten = good.length ∧
    (∃ heightRows colorRows : List (Array UInt8),
      w.heights = feed heightRows heightStream ∧ heightRows.length = good.length ∧
      w.colors = feed colorRows colorStream ∧ colorRows.length = good.length ∧
      ∀ (before after : List Call) (values : Array Float32),
        calls = before ++ .row values :: after →
        (∀ row ∈ rows before, row.size = size.width * 4) → values.size = size.width * 4 →
        ∃ heightRow colorRow : Array UInt8,
          heightRows[(rows before).length]? = some heightRow ∧
          heightRow.size = size.width * 2 ∧
          colorRows[(rows before).length]? = some colorRow ∧ colorRow.size = size.width * 3 ∧
          ∀ x, x < size.width →
            (∃ h, values[x * 4]? = some h ∧
              let q := (w₀.follow before).range.quantize h
              heightRow[x * 2]? = some (q >>> 8).toUInt8 ∧
                heightRow[x * 2 + 1]? = some q.toUInt8) ∧
            ∀ j : Fin 3, ∃ channel, values[x * 4 + (1 + j.val)]? = some channel ∧
              colorRow[x * 3 + j.val]? = some (Binary32.toByte channel)) ∧
    (∀ (before after : List Call) (values : Array Float32),
      calls = before ++ .row values :: after → values.size ≠ size.width * 4 →
      w.rowsWritten = (w₀.follow before).rowsWritten ∧
      w.heights = (w₀.follow before).heights ∧ w.colors = (w₀.follow before).colors) ∧
    (∀ min max : Float32,
      ((∃ err, w.setRange min max = .error err) ↔ ¬ min < max) ∧
      w.serve (.setRange min max)
        = { w with range := if min < max then ⟨min, max⟩ else w.range }) ∧
    (∀ values, wrong? = some values →
      w.result = .error (.rowLength (size.width * 4) values.size)) ∧
    (wrong? = none → (w.result = .ok () ↔ good.length = size.height)) := by
  intro w₀ w good wrong?
  have hready : w₀.Ready := ⟨Array.size_replicate, Array.size_replicate, rfl⟩
  have hlength : (taken (size.width * 4) w₀.range calls).length = good.length :=
    length_taken _ _ _
  obtain ⟨htook, hfault⟩ : Took w₀ (taken (size.width * 4) w₀.range calls) w ∧
      w.fault = wrong?.map fun row => .rowLength (size.width * 4) row.size :=
    follow_taken hready hheightStream hcolorStream (hlength ▸ hcalls)
  have hheightRows : (heightRows size.width (taken (size.width * 4) w₀.range calls)).length
      = good.length := by rw [heightRows, List.length_map, hlength]
  have hcolorRows : (colorRows size.width (taken (size.width * 4) w₀.range calls)).length
      = good.length := by rw [colorRows, List.length_map, hlength]
  refine ⟨?_, ⟨_, _, htook.heights, hheightRows, htook.colors, hcolorRows, ?_⟩, ?_, ?_, ?_, ?_⟩
  · rw [htook.rowsWritten, hlength]
    exact Nat.zero_add _
  · rintro before after values rfl hbefore hsize
    have hget : (taken (size.width * 4) w₀.range (before ++ .row values :: after))[
        (rows before).length]? = some ((w₀.follow before).range, values) :=
      getElem?_taken w₀ hbefore hsize
    refine ⟨heightBytes (w₀.follow before).range size.width (Pixel.at values),
      colorBytes size.width (Pixel.at values), ?_, size_heightBytes _ _ _, ?_,
      size_colorBytes _ _, fun x hx => getElem?_bytes_of_size _ hsize hx⟩
    · rw [heightRows, List.getElem?_map]
      exact congrArg (Option.map _) hget
    · rw [colorRows, List.getElem?_map]
      exact congrArg (Option.map _) hget
  · rintro before after values rfl hsize
    have hstop := follow_row_of_size_ne (w := w₀.follow before)
      (by rw [size_follow]; exact hsize) after
    rw [← follow_append] at hstop
    exact ⟨hstop.1, hstop.2.1, hstop.2.2.1⟩
  · intro min max
    refine ⟨⟨?_, fun h => ⟨_, setRange_of_not_lt h w⟩⟩, serve_setRange w min max⟩
    rintro ⟨err, herr⟩ hlt
    rw [setRange_of_lt hlt] at herr
    cases herr
  · intro values hwrong
    exact result_of_fault (by rw [hfault, hwrong]; rfl)
  · intro hwrong
    have hheights := hheightEnd (heightRows size.width (taken (size.width * 4) w₀.range calls))
      (List.forall_mem_map.2 fun row _ => size_heightBytes row.1 _ _) (hheightRows ▸ hcalls)
    have hcolors := hcolorEnd (colorRows size.width (taken (size.width * 4) w₀.range calls))
      (List.forall_mem_map.2 fun row _ => size_colorBytes _ _) (hcolorRows ▸ hcalls)
    rw [hheightRows] at hheights
    rw [hcolorRows] at hcolors
    rw [result_eq_ok_iff (by rw [hfault, hwrong]; rfl), htook.heights, htook.colors]
    exact ⟨fun hdone => hheights.1 hdone.1, fun hall => ⟨hheights.2 hall, hcolors.2 hall⟩⟩

/-- An image of two pixels: one row, a range that is refused, an empty row and a late one. -/
theorem follow_keeps_first_fault_empty_row :
    let size : Size := ⟨1, 2⟩
    let heightStream : ImageStream := ⟨["height.png"], size, 2, #[]⟩
    let colorStream : ImageStream := ⟨["color.png"], size, 3, #[]⟩
    let black : Array Float32 := Array.replicate 4 Binary32.zero
    let calls : List Call :=
      [.row black, .setRange Binary32.one Binary32.zero, .row #[], .row black]
    Accepts (size.width * 2) size.height heightStream ∧
    Accepts (size.width * 3) size.height colorStream ∧
    Completes (size.width * 2) size.height heightStream ∧
    Completes (size.width * 3) size.height colorStream ∧
    ((rows calls).takeWhile (·.size == size.width * 4)).length ≤ size.height ∧
    ((start size heightStream colorStream).follow calls).rowsWritten = 1 ∧
    ((start size heightStream colorStream).follow calls).result = .error (.rowLength 4 0) := by
  intro size heightStream colorStream black calls
  have hheightStream := heightStream.accepts (size.width * 2) size.height
  have hcolorStream := colorStream.accepts (size.width * 3) size.height
  have hheightEnd : Completes (size.width * 2) size.height heightStream :=
    heightStream.completes Nat.one_pos Nat.two_pos Nat.two_pos rfl
  have hcolorEnd : Completes (size.width * 3) size.height colorStream :=
    colorStream.completes Nat.one_pos Nat.two_pos (Nat.succ_pos 2) rfl
  have hgood : ((rows calls).takeWhile (·.size == size.width * 4)).length = 1 := rfl
  have hwrong : (rows calls).find? (·.size != size.width * 4) = some #[] := rfl
  have hcalls : ((rows calls).takeWhile (·.size == size.width * 4)).length ≤ size.height := by
    rw [hgood]
    decide
  obtain ⟨hcount, -, -, -, hresult, -⟩ :=
    follow_keeps_first_fault hheightStream hcolorStream hheightEnd hcolorEnd hcalls
  exact ⟨hheightStream, hcolorStream, hheightEnd, hcolorEnd, hcalls, hcount.trans hgood,
    hresult #[] hwrong⟩

end RowWriter

end Relief
