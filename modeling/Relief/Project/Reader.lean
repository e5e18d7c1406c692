import Relief.Project.Basic
import Relief.Json.Record

set_option autoImplicit false

/-! # Reading projects: documents and files

A project document names the settings that differ from the standard ones. Sizes of zero or less
count as not given. -/

namespace Relief

open Json

/-- A side of a raster: a whole number, taken as the standard side unless it is positive. -/
def readSide : Reader Nat := fun cs =>
  (readInteger cs).map fun (n, rest) => (if 0 < n then n.toNat else Project.standardSide, rest)

/-- The fields of a size. -/
def Size.fields : List (FieldReader Size) :=
  [.of "width" readSide fun s n => { s with width := n },
    .of "height" readSide fun s n => { s with height := n }]

/-- The fields of a height range. -/
def HeightRange.fields : List (FieldReader HeightRange) :=
  [.of "min" readSingle fun r x => { r with min := x },
    .of "max" readSingle fun r x => { r with max := x }]

/-- The fields of the output paths. -/
def Outputs.fields : List (FieldReader Outputs) :=
  [.of "height" (readText "path string") fun o path => { o with height := path },
    .of "color" (readText "path string") fun o path => { o with color := path }]

namespace Project

/-- The fields of a project. A section that is given starts from its standard values. -/
def fields : List (FieldReader Project) :=
  [.of "resolution" (readRecord "struct Resolution" Size.fields standard.size)
      fun p size => { p with size := size },
    .of "height_range" (readRecord "struct HeightRange" HeightRange.fields standard.range)
      fun p range => { p with range := range },
    .of "height" (readChoice HeightPreset.all HeightPreset.name)
      fun p preset => { p with height := preset },
    .of "color" (readChoice ColorPreset.all ColorPreset.name)
      fun p preset => { p with color := preset },
    .of "outputs" (readRecord "struct Outputs" Outputs.fields standard.outputs)
      fun p outputs => { p with outputs := outputs },
    .of "sampling" (readChoice Sampling.all Sampling.name)
      fun p sampling => { p with sampling := sampling }]

/-- The project of a document. -/
def parse (text : String) : Except Fault Project :=
  readDocument (readRecord "struct Project" fields standard) text

/-- The project of a document, its fault as an error. -/
def ofText (text : String) : Except Error Project :=
  match parse text with
  | .ok p => .ok p
  | .error fault => .error (.document fault)

/-- The project of the document in a file. -/
def load (fs : Files) (path : String) : Except Error Project :=
  match fs.readText? path with
  | .error err => .error (.file err)
  | .ok content => ofText content

end Project

end Relief
