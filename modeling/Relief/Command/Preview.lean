import Relief.Command.Settings
import Relief.Preview.Job
import Relief.Preview.Mosaic
import Relief.Tile.Mesh

set_option autoImplicit false

/-! # The preview command: a project into a mosaic, tile by tile -/

namespace Relief.Command.Preview

/-- The options of the command. -/
def options : List OptionSpec :=
  sharedOptions ++
    [⟨"sampling", .name (Sampling.all.map Sampling.name)⟩, ⟨"tick-ms", .size⟩,
      ⟨"max-tiles", .size⟩, ⟨"out", .path⟩]

/-- Where the mosaic goes when nothing is said. -/
def standardOut : String := "preview.png"

/-- Where the mosaic goes. -/
def out (given : Given) : String := (given.text? "out").getD standardOut

/-- Lets the option of the command that is a setting replace the one of a project. -/
def merge (given : Given) (p : Project) : Project :=
  let sampling := (given.text? "sampling").bind (Sampling.ofName? false)
  p |> override sampling (fun p sampling => { p with sampling := sampling })

/-- The project that the command previews. -/
def project (given : Given) (fs : Files) : Except Error Project :=
  (startingProject given fs).map (merge given)

/-! ## Observers -/

/-- What the observers of a preview keep. -/
structure Progress where
  mosaic : Mosaic
  triangles : Nat
  /-- The number of tiles that the limit has seen. -/
  seen : Nat
  cancelled : Bool

/-- Puts tiles together to the mosaic. -/
def collect : TileObserver Progress := fun t s => { s with mosaic := s.mosaic.add t }

/-- Counts the triangles of the tiles' meshes. -/
def countTriangles : TileObserver Progress := fun t s =>
  match Mesh.ofTile t with
  | .ok mesh => { s with triangles := s.triangles + mesh.triangleCount }
  | .error _ => s

/-- Cancels when so many tiles have been seen; the first one is seen in any case. -/
def limitTo (limit : Nat) : TileObserver Progress := fun _ s =>
  let seen := s.seen + 1
  { s with seen := seen, cancelled := s.cancelled || decide (limit ≤ seen) }

/-! ## Running -/

/-- The renderer of a project, with its observers. -/
def renderer (p : Project) (limit : Option Nat) : Except RenderError (TileRenderer Progress) :=
  let r := (TileRenderer.new.setSize p.size).setSampling p.sampling
  match r.setHeight p.heightExpr with
  | .error err => .error err
  | .ok r =>
    let r := (r.observe collect).observe countTriangles
    .ok (override limit (fun r n => r.observe (limitTo n)) r)

/-- What the command says when it is done. -/
def success (out : String) (m : Mosaic) : String :=
  "Wrote " ++ out ++ " (" ++ toString m.tiles ++ " tiles)\n"

/-- Saves what there is of the mosaic. -/
def saveMosaic (m : Mosaic) (out : String) (fs : Files) : Outcome :=
  match m.save fs out with
  | (.error err, fs) => failed err fs
  | (.ok (), fs) => ⟨0, "", success out m, fs⟩

/-- Renders a project and saves the mosaic, also when the limit has cut the frame short. -/
def render (p : Project) (tick : Nat) (limit : Option Nat) (out : String) (fs : Files) : Outcome :=
  match renderer p limit with
  | .error err => failed (.render err) fs
  | .ok r =>
    let start : Progress := ⟨Mosaic.new p.size p.range, 0, 0, false⟩
    let ended := RenderJob.run ⟨tick⟩ Progress.cancelled r start
    match ended.result with
    | .ok _ | .error (.error (.cancelled _ _)) => saveMosaic ended.state.mosaic out fs
    | .error (.error err) => failed err fs
    | .error .noPeriod => ⟨101, "", "the tick must not be zero\n", fs⟩

/-- Follows the options. -/
def follow (given : Given) (fs : Files) : Outcome :=
  match project given fs with
  | .error err => failed err fs
  | .ok p =>
    match p.validate with
    | .error err => failed err fs
    | .ok () =>
      render p ((given.size? "tick-ms").getD RenderJob.standardTick) (given.size? "max-tiles")
        (out given) fs

/-- Runs the command. A command line that cannot be followed ends it with code 2. -/
def run (arguments : List String) (fs : Files) : Outcome :=
  match parse options [] arguments with
  | .error err => ⟨2, "", "error: " ++ err.message ++ "\n", fs⟩
  | .ok .help => ⟨0, usage "relief preview" options, "", fs⟩
  | .ok (.run given) => follow given fs

end Relief.Command.Preview
