import Relief.Command.Settings
import Relief.Export.Run

set_option autoImplicit false

/-! # The export command: a project into a height map and a colour map -/

namespace Relief.Command.Export

/-- The options of the command. -/
def options : List OptionSpec :=
  sharedOptions ++
    [⟨"color-preset", .name (ColorPreset.all.map ColorPreset.name)⟩, ⟨"min", .number⟩,
      ⟨"max", .number⟩, ⟨"height-out", .path⟩, ⟨"color-out", .path⟩]

/-- Lets the options of the command replace the settings of a project. -/
def merge (given : Given) (p : Project) : Project :=
  let preset := (given.text? "color-preset").bind (ColorPreset.ofName? false)
  p |> override preset (fun p preset => { p with color := preset })
    |> override (given.number? "min") (fun p x => { p with range := { p.range with min := x } })
    |> override (given.number? "max") (fun p x => { p with range := { p.range with max := x } })
    |> override (given.text? "height-out")
      (fun p path => { p with outputs := { p.outputs with height := path } })
    |> override (given.text? "color-out")
      (fun p path => { p with outputs := { p.outputs with color := path } })

/-- The project that the command exports. -/
def project (given : Given) (fs : Files) : Except Error Project :=
  (startingProject given fs).map (merge given)

/-- What the command says when it is done. -/
def success (p : Project) : String :=
  "Wrote " ++ p.outputs.height ++ " and " ++ p.outputs.color ++ " (" ++ toString p.size.width ++
    "x" ++ toString p.size.height ++ ")\n"

/-- Follows the options. -/
def follow (given : Given) (fs : Files) : Outcome :=
  match project given fs with
  | .error err => failed err fs
  | .ok p =>
    match p.exportMaps fs with
    | (.error err, fs) => failed err fs
    | (.ok (), fs) => ⟨0, "", success p, fs⟩

/-- Runs the command. A command line that cannot be followed ends it with code 2. -/
def run (arguments : List String) (fs : Files) : Outcome :=
  match parse options [] arguments with
  | .error err => ⟨2, "", "error: " ++ err.message ++ "\n", fs⟩
  | .ok .help => ⟨0, usage "relief export" options, "", fs⟩
  | .ok (.run given) => follow given fs

end Relief.Command.Export
