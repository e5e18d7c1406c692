import Relief.Command.Options
import Relief.Project.Reader

set_option autoImplicit false

/-! # Settings: a project and the options over it

Both commands start from a project file or from the standard project and let options replace single
settings. What they have in common is merged here, so that they cannot disagree. -/

namespace Relief

namespace Command

/-- How a command ended: its exit code, what it says, and the files it leaves. -/
structure Outcome where
  code : Nat
  /-- What goes to the output: the usage, when it was asked for. -/
  output : String
  /-- What is said about the run and its failures. -/
  report : String
  files : Files

/-- The options that both commands take. -/
def sharedOptions : List OptionSpec :=
  [⟨"project", .path⟩, ⟨"width", .size⟩, ⟨"height", .size⟩,
    ⟨"height-preset", .name (HeightPreset.all.map HeightPreset.name)⟩]

/-- Sets a value if there is one. -/
def override {α β : Type} (value : Option β) (store : α → β → α) (record : α) : α :=
  match value with
  | some v => store record v
  | none => record

/-- A size, unless it is zero, which counts as not given. -/
def positive? (n : Nat) : Option Nat := if 0 < n then some n else none

/-- Lets the common options replace the settings of a project. -/
def mergeShared (given : Given) (p : Project) : Project :=
  let width := (given.size? "width").bind positive?
  let height := (given.size? "height").bind positive?
  let preset := (given.text? "height-preset").bind (HeightPreset.ofName? false)
  p |> override width (fun p n => { p with size := { p.size with width := n } })
    |> override height (fun p n => { p with size := { p.size with height := n } })
    |> override preset (fun p preset => { p with height := preset })

/-- The project that a command starts from, with the common options merged in. -/
def startingProject (given : Given) (fs : Files) : Except Error Project :=
  let loaded :=
    match given.text? "project" with
    | some path => Project.load fs path
    | none => .ok Project.standard
  loaded.map (mergeShared given)

end Command

/-! ## Reports -/

/-- The class of a renderer's failure. -/
def RenderError.kind : RenderError → String
  | .lowering _ _ => "Lowering"
  | .frameInProgress => "FrameInProgress"
  | .noFrame => "NoFrame"
  | .frameComplete => "FrameComplete"
  | .missingExpr _ => "MissingExpr"
  | .bufferSize _ _ => "BufferSize"

/-- The class of a failure. -/
def Error.kind : Error → String
  | .render _ => "Core"
  | .file _ => "Io"
  | .png _ => "Png"
  | .image _ => "Image"
  | .document _ => "Config"
  | .invalidRange _ _ => "InvalidHeightRange"
  | .rowLength _ _ => "RowLength"
  | .cancelled _ _ => "Cancelled"

/-- What a command says about a failure: the class, with the values of a failure that is about
    values, and otherwise with the message in parentheses. -/
def Error.report (err : Error) : String :=
  let fields (a x b y : String) : String :=
    " \x7b " ++ a ++ ": " ++ x ++ ", " ++ b ++ ": " ++ y ++ " \x7d"
  let detail :=
    match err with
    | .invalidRange min max =>
      fields "min" (numberText .expression min) "max" (numberText .expression max)
    | .rowLength expected actual => fields "expected" (toString expected) "actual" (toString actual)
    | .cancelled rendered total => fields "rendered" (toString rendered) "total" (toString total)
    | err => "(" ++ err.message ++ ")"
  "Error: " ++ err.kind ++ detail ++ "\n"

/-- The outcome of a command that failed. -/
def Command.failed (err : Error) (fs : Files) : Command.Outcome := ⟨1, "", err.report, fs⟩

end Relief
