import Relief.Command.Export
import Relief.Command.Preview
import Relief.Image.Png

set_option autoImplicit false

/-! # The command line: the commands on real files

The commands are functions on a value that holds the files. This module makes known to them what
they will meet on the disk, and writes what they leave to it. -/

namespace Relief

/-! ## The disk -/

namespace Disk

/-- Whether something at a path can be opened. -/
def opens (path : String) : IO Bool := do
  try
    discard (IO.FS.Handle.mk path .read)
    return true
  catch _ => return false

/-- Makes known the directories on a path, and a file that stands in the way of one. -/
def survey (fs : Files) (path : String) : IO Files := do
  let names := Path.names path
  let mut fs := fs
  for count in List.range names.length do
    let reached := "/".intercalate (names.take (count + 1))
    if !reached.isEmpty then
      if ← opens (reached ++ "/.") then fs := fs.addDirectory (Files.placeOf reached)
      else if ← opens reached then fs := fs.putText reached ""
  return fs

/-- Makes the file at a path known with its text. A file that is no text is known as such. -/
def load (fs : Files) (path : String) : IO Files := do
  let fs ← survey fs path
  let place := Files.placeOf path
  if (fs.content? place).isNone then return fs
  try return fs.putText path (← IO.FS.readFile path)
  catch _ => return fs.put place .partialImage

/-- The path of a place. -/
def pathOf : FilePlace → String
  | "/" :: names => "/" ++ "/".intercalate names
  | names => "/".intercalate names

/-- Writes a file. An image that is not complete leaves an empty file. -/
def store (place : FilePlace) : FileContent → IO Unit
  | .text content => IO.FS.writeFile (pathOf place) content
  | .image image => IO.FS.writeBinFile (pathOf place) (Png.encode image)
  | .partialImage => IO.FS.writeBinFile (pathOf place) ByteArray.empty

end Disk

/-! ## Running -/

/-- A command as the command line sees it: its options, the paths that it will write to, and its
    run. -/
structure Tool where
  options : List Command.OptionSpec
  outputs : Command.Given → Files → List String
  run : List String → Files → Command.Outcome

/-- The command that exports maps. -/
def Tool.exporter : Tool :=
  let outputs (given : Command.Given) (fs : Files) : List String :=
    match Command.Export.project given fs with
    | .ok p => [p.outputs.height, p.outputs.color]
    | .error _ => []
  ⟨Command.Export.options, outputs, Command.Export.run⟩

/-- The command that previews tile by tile. -/
def Tool.previewer : Tool :=
  let outputs (given : Command.Given) (_ : Files) : List String := [Command.Preview.out given]
  ⟨Command.Preview.options, outputs, Command.Preview.run⟩

/-- Runs a command on the files of the disk. -/
def Tool.execute (tool : Tool) (arguments : List String) : IO UInt32 := do
  let given :=
    match Command.parse tool.options [] arguments with
    | .ok (.run given) => given
    | _ => []
  let fs ← ((given.text? "project").toList).foldlM Disk.load Files.empty
  let fs ← (tool.outputs given fs).foldlM Disk.survey fs
  let outcome := tool.run arguments fs
  for (place, content) in fs.changes outcome.files do
    Disk.store place content
  IO.print outcome.output
  IO.eprint outcome.report
  return UInt32.ofNat outcome.code

end Relief

open Relief in
/-- The program: the first argument names the command, and the others are its own. -/
def main (arguments : List String) : IO UInt32 := do
  match arguments with
  | "export" :: rest => Tool.exporter.execute rest
  | "preview" :: rest => Tool.previewer.execute rest
  | _ =>
    IO.eprintln "Usage: relief export|preview [OPTIONS]"
    return 2
