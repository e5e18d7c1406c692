import Relief.Proofs.Previews
import Relief.Render.Canvas

set_option autoImplicit false

/-! # Exports: what a successful export leaves in its two files

A project describes two images (`Project.heightImage`, `Project.colorImage`), and the stream that
was handed all rows of one of them leaves that image when it is closed (`content_heights`,
`content_colors`). What is read afterwards also depends on the paths. Creating and closing makes no
directory, so each path still leads to the place that it led to before, and the colour map is closed
last (`read_of_exportMaps`). Nothing compares the two places and nothing checks that a side fits 32
bits, so these two conditions are exactly what a success leaves open
(`leaves_both_images_iff`). -/

namespace Relief.Project

open ByteStream (feed)
open RowWriter (firstRows heightRowAt colorRowAt)

/-! ## The images of a project -/

/-- The samples of the height map of a project. -/
def heightSamples (p : Project) (field : Field Float32) : Array UInt16 :=
  Array.ofFn (n := p.size.area) fun i => p.range.quantize (field (Canvas.coords p.size i))

/-- The bytes of the colour map of a project, three for each pixel. -/
def colorBytes (p : Project) (color : Field Color) : Array UInt8 :=
  Array.ofFn (n := p.size.area * 3) fun i => Binary32.toByte (Pixel.scale
    ((color (Canvas.coords p.size (i / 3))).get ⟨i % 3, Nat.mod_lt _ (Nat.succ_pos 2)⟩))

/-- The height map that a project describes. -/
def heightImage (p : Project) (field : Field Float32) : Image :=
  ⟨p.size, .gray16 (p.heightSamples field)⟩

/-- The colour map that a project describes. -/
def colorImage (p : Project) (color : Field Color) : Image := ⟨p.size, .rgb8 (p.colorBytes color)⟩

variable {p : Project} {fs fs' : Files}

/-! ## The files of an export -/

/-- The sample of a height map at a pixel. -/
theorem getElem?_heightSamples (p : Project) (field : Field Float32) {x y : Nat}
    (hx : x < p.size.width) (hy : y < p.size.height) :
    (p.heightSamples field)[y * p.size.width + x]?
      = some (p.range.quantize (field (Coords.ofPixel x y p.size.width p.size.height))) := by
  obtain ⟨hcolumn, hrow⟩ := (rowMajor_iff hx).2 (rfl : y * p.size.width + x = _)
  have harea : y * p.size.width + x < p.size.area := rowMajor_lt hx hy
  rw [heightSamples, Array.getElem?_ofFn, dif_pos harea]
  simp only [Canvas.coords, hcolumn, hrow]

/-- The stream of the height map, handed all rows, leaves the height map of the project. -/
theorem content_heights (field : Field Float32) (color : Field Color) (place : FilePlace)
    (hwidth : 0 < p.size.width) (hheight : 0 < p.size.height) :
    (feed (firstRows (heightRowAt p.range field color p.size) p.size.height)
      (⟨place, p.size, 2, #[]⟩ : ImageStream)).content .ofGrayBytes
        = .image (p.heightImage field) := by
  have hrow : ∀ y, (heightRowAt p.range field color p.size y).size = p.size.width * 2 :=
    fun y => RowWriter.size_heightBytes _ _ _
  obtain ⟨hbytes, -⟩ := ImageStream.feed_firstRows_complete ⟨place, p.size, 2, #[]⟩ hwidth hheight
    Nat.two_pos rfl hrow
  have hsize : (p.heightSamples field).size = p.size.area := Array.size_ofFn
  rw [ImageStream.content_of_size hbytes, ofGrayBytes_heights rfl hsize fun _ _ hx hy =>
    p.getElem?_heightSamples field hx hy, ImageStream.feed_eq]
  rfl

/-- The bytes of all rows of a colour map. -/
theorem bytes_feed_colorRowAt (p : Project) (field : Field Float32) (color : Field Color)
    {stream : ImageStream} (hblank : stream.bytes = #[]) :
    (feed (firstRows (colorRowAt field color p.size) p.size.height) stream).bytes
      = p.colorBytes color := by
  have hrow : ∀ y, (colorRowAt field color p.size y).size = p.size.width * 3 :=
    fun y => RowWriter.size_colorBytes _ _
  have hsize := ImageStream.size_bytes_feed_firstRows hrow hblank
  unfold colorBytes
  refine Array.ext (by rw [hsize, Array.size_ofFn]) ?_
  intro i hi hi'
  rw [Array.getElem_ofFn]
  -- Byte `i` is channel `i % 3` of pixel `i / 3`.
  have harea : i / 3 < p.size.area := by
    rw [hsize] at hi
    omega
  have hx : i / 3 % p.size.width < p.size.width := Nat.mod_lt _ (Nat.pos_of_lt_mul_right harea)
  have hchannel : i % 3 < 3 := Nat.mod_lt _ (Nat.succ_pos 2)
  have hbyte := ImageStream.getElem?_bytes_feed_pixel hrow hblank harea hchannel
  rw [Nat.div_add_mod', Array.getElem?_eq_getElem hi,
    RowWriter.getElem?_colorRowAt hx (i / 3 / p.size.width) ⟨i % 3, hchannel⟩] at hbyte
  exact Option.some.inj hbyte

/-- The stream of the colour map, handed all rows, leaves the colour map of the project. -/
theorem content_colors (field : Field Float32) (color : Field Color) (place : FilePlace)
    (hwidth : 0 < p.size.width) (hheight : 0 < p.size.height) :
    (feed (firstRows (colorRowAt field color p.size) p.size.height)
      (⟨place, p.size, 3, #[]⟩ : ImageStream)).content .rgb8 = .image (p.colorImage color) := by
  have hrow : ∀ y, (colorRowAt field color p.size y).size = p.size.width * 3 :=
    fun y => RowWriter.size_colorBytes _ _
  obtain ⟨hbytes, -⟩ := ImageStream.feed_firstRows_complete ⟨place, p.size, 3, #[]⟩ hwidth hheight
    (Nat.succ_pos 2) rfl hrow
  rw [ImageStream.content_of_size hbytes, bytes_feed_colorRowAt p field color rfl,
    ImageStream.feed_eq]
  rfl

/-- What is read after a successful export. Both paths still name the places that they named before,
    and one content was put into each, the colour map last. The contents are images of the wrapped
    size or none, and if the size needs no more than 32 bits they are the images of the project. -/
theorem read_of_exportMaps (h : p.exportMaps fs = (.ok (), fs')) :
    ∃ (field : Field Float32) (color : Field Color) (heightPlace colorPlace : FilePlace)
      (heights colors : FileContent),
      p.heightExpr.compile .float = .ok field ∧ p.colorExpr.compile .vec3 = .ok color ∧
      fs.create? p.outputs.height = .ok heightPlace ∧
      fs.create? p.outputs.color = .ok colorPlace ∧
      fs'.read? p.outputs.height
        = .ok (if heightPlace = colorPlace then colors else heights) ∧
      fs'.read? p.outputs.color = .ok colors ∧
      (∀ image, heights = .image image → image.size = p.size.wrapped) ∧
      (p.size.wrapped = p.size →
        heights = .image (p.heightImage field) ∧ colors = .image (p.colorImage color)) := by
  obtain ⟨⟨field, hfield⟩, color, hcolor⟩ := p.exprs_compile
  have hexport := h
  unfold exportMaps at hexport
  split at hexport
  · cases hexport
  · next hrange =>
    split at hexport
    · cases hexport
    · next w₀ fs₁ hcreate =>
      obtain ⟨heightPlace, colorPlace, hheightPlace, hcolorPlace, rfl, rfl, hwidth, hheight⟩ :=
        MapWriter.create_eq_ok hcreate
      obtain ⟨w, hfinish, -, hheights, hcolors⟩ :=
        exportMaps_of_create hrange hfield hcolor hcreate
      have hplace : w.heights.place = heightPlace ∧ w.colors.place = colorPlace := by
        rw [hheights, hcolors, ImageStream.feed_eq, ImageStream.feed_eq]
        exact ⟨rfl, rfl⟩
      have hsize : w.heights.size = p.size.wrapped := by rw [hheights, ImageStream.feed_eq]
      have hemptied := ((Files.SameDirectories.refl fs).put (Files.rooted_of_create? hheightPlace)
        .partialImage).put (Files.rooted_of_create? hcolorPlace) .partialImage
      obtain ⟨hreadHeights, hreadColors⟩ := MapWriter.read?_close hemptied
        (hplace.1 ▸ hheightPlace) (hplace.2 ▸ hcolorPlace)
      rw [← (Prod.mk.inj (h.symm.trans hfinish)).2] at hreadHeights hreadColors
      rw [hplace.1, hplace.2] at hreadHeights
      refine ⟨field, color, heightPlace, colorPlace, w.heights.content .ofGrayBytes,
        w.colors.content .rgb8, hfield, hcolor, hheightPlace, hcolorPlace, hreadHeights,
        hreadColors, ?_, ?_⟩
      · intro image himage
        rw [ImageStream.size_of_content himage, hsize]
      · intro hwrapped
        rw [hheights, hcolors]
        rw [hwrapped] at hwidth hheight ⊢
        exact ⟨content_heights field color heightPlace hwidth hheight,
          content_colors field color colorPlace hwidth hheight⟩

/-- **An export that succeeds has left both of its images** exactly when its two paths name
    different files and no side of the raster needs more than 32 bits. Whatever the project is and
    whatever files there were, the height map is then read at its path with the size of the project
    and the sample of its height at every pixel, and the colour map at its own with the bytes of its
    colour. Otherwise one of the two images is not there, although no failure is reported: one file
    cannot hold both, and an image has sides of 32 bits. -/
theorem leaves_both_images_iff (h : p.exportMaps fs = (.ok (), fs')) :
    ∃ (field : Field Float32) (color : Field Color) (heightPlace colorPlace : FilePlace),
      p.heightExpr.compile .float = .ok field ∧ p.colorExpr.compile .vec3 = .ok color ∧
      fs.create? p.outputs.height = .ok heightPlace ∧
      fs.create? p.outputs.color = .ok colorPlace ∧
      (fs'.read? p.outputs.height = .ok (.image (p.heightImage field)) ∧
          fs'.read? p.outputs.color = .ok (.image (p.colorImage color))
        ↔ heightPlace ≠ colorPlace ∧ p.size.width < UInt32.size ∧
          p.size.height < UInt32.size) := by
  obtain ⟨field, color, heightPlace, colorPlace, heights, colors, hfield, hcolor, hheightPlace,
    hcolorPlace, hheights, hcolors, hsize, hfits⟩ := read_of_exportMaps h
  refine ⟨field, color, heightPlace, colorPlace, hfield, hcolor, hheightPlace, hcolorPlace, ?_⟩
  rw [hheights, hcolors, Except.ok.injEq, Except.ok.injEq]
  constructor
  · rintro ⟨hgray, hrgb⟩
    have hne : heightPlace ≠ colorPlace := by
      intro hplaces
      rw [if_pos hplaces, hrgb] at hgray
      cases hgray
    rw [if_neg hne] at hgray
    have hwrapped : p.size = p.size.wrapped := hsize _ hgray
    have hwidth : p.size.width = p.size.width % UInt32.size := congrArg Size.width hwrapped
    have hheight : p.size.height = p.size.height % UInt32.size := congrArg Size.height hwrapped
    refine ⟨hne, ?_, ?_⟩
    · rw [hwidth]
      exact Nat.mod_lt _ (by decide)
    · rw [hheight]
      exact Nat.mod_lt _ (by decide)
  · rintro ⟨hne, hwidth, hheight⟩
    rw [if_neg hne]
    exact hfits (Size.wrapped_of_lt hwidth hheight)

/-- An export that could create its files succeeds, if no side needs more than 32 bits. -/
theorem exists_exportMaps (hrange : p.validate = .ok ())
    (hwidth : 1 ≤ p.size.width ∧ p.size.width < UInt32.size)
    (hheight : 1 ≤ p.size.height ∧ p.size.height < UInt32.size) {w₀ : MapWriter} {fs₁ : Files}
    (hcreate : MapWriter.create fs p.size p.outputs.height p.outputs.color = (.ok w₀, fs₁)) :
    ∃ fs', p.exportMaps fs = (.ok (), fs') := by
  obtain ⟨⟨field, hfield⟩, -⟩ := p.exprs_compile
  obtain ⟨w, hexport, -⟩ := heightMap_of_exportMaps hrange hwidth hheight hfield Array.size_ofFn
    (fun x y hx hy => p.getElem?_heightSamples field hx hy) hcreate
  exact ⟨_, hexport⟩

/-- A project of two by one pixels in an empty directory leaves both of its images. -/
theorem leaves_both_images_small :
    let p : Project := { Project.standard with size := ⟨2, 1⟩ }
    ∃ (fs' : Files) (field : Field Float32) (color : Field Color),
      p.exportMaps Files.empty = (.ok (), fs') ∧
      p.heightExpr.compile .float = .ok field ∧ p.colorExpr.compile .vec3 = .ok color ∧
      fs'.read? "height.png" = .ok (.image (p.heightImage field)) ∧
      fs'.read? "color.png" = .ok (.image (p.colorImage color)) := by
  intro p
  obtain ⟨w₀, fs₁, hcreate⟩ : ∃ w₀ fs₁, MapWriter.create Files.empty ⟨2, 1⟩ "height.png"
      "color.png" = (.ok w₀, fs₁) := ⟨_, _, rfl⟩
  obtain ⟨fs', hexport⟩ : ∃ fs', p.exportMaps Files.empty = (.ok (), fs') :=
    exists_exportMaps HeightRange.validate_unit (by decide) (by decide) hcreate
  obtain ⟨field, color, heightPlace, colorPlace, hfield, hcolor, hheightPlace, hcolorPlace,
    hboth⟩ := leaves_both_images_iff hexport
  have hheight : Files.empty.create? "height.png" = .ok ["height.png"] := rfl
  have hcolor' : Files.empty.create? "color.png" = .ok ["color.png"] := rfl
  have hne : heightPlace ≠ colorPlace := by
    cases hheightPlace.symm.trans hheight
    cases hcolorPlace.symm.trans hcolor'
    decide
  obtain ⟨hheights, hcolors⟩ := hboth.2 ⟨hne, by decide, by decide⟩
  exact ⟨fs', field, color, hexport, hfield, hcolor, hheights, hcolors⟩

/-- Two paths of one file, in an empty directory: the export succeeds, and no height map is left. -/
theorem leaves_one_image_in_one_file :
    let p : Project := { Project.standard with size := ⟨2, 1⟩, outputs := ⟨"a.png", "./a.png"⟩ }
    ∃ fs', p.exportMaps Files.empty = (.ok (), fs') ∧
      ∀ samples : Array UInt16,
        fs'.read? p.outputs.height ≠ .ok (.image ⟨p.size, .gray16 samples⟩) := by
  intro p
  obtain ⟨w₀, fs₁, hcreate⟩ : ∃ w₀ fs₁, MapWriter.create Files.empty ⟨2, 1⟩ "a.png" "./a.png"
      = (.ok w₀, fs₁) := ⟨_, _, rfl⟩
  obtain ⟨fs', hexport⟩ : ∃ fs', p.exportMaps Files.empty = (.ok (), fs') :=
    exists_exportMaps HeightRange.validate_unit (by decide) (by decide) hcreate
  obtain ⟨_, color, heightPlace, colorPlace, _, _, -, -, hheightPlace, hcolorPlace, hread, -, -,
    hfits⟩ := read_of_exportMaps hexport
  have hheight : Files.empty.create? "a.png" = .ok ["a.png"] := rfl
  have hcolor : Files.empty.create? "./a.png" = .ok ["a.png"] := rfl
  have hplaces : heightPlace = colorPlace := by
    cases hheightPlace.symm.trans hheight
    cases hcolorPlace.symm.trans hcolor
    rfl
  refine ⟨fs', hexport, fun samples hgray => ?_⟩
  rw [hread, if_pos hplaces, (hfits rfl).2] at hgray
  cases hgray

end Relief.Project
