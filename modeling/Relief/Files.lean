import Relief.Image.Basic
import Relief.Path

set_option autoImplicit false

/-! # Files: the working directory as a value

The commands read a project file and write images. What they leave behind is a value here: the
files below the working directory, each with its content. Paths are resolved as a file system does
it, component by component, so a path can fail in different ways: its directory is missing, a file
stands where a directory is needed, or a directory where a file is. The directories above the
working directory and the root are there as well. -/

namespace Relief

/-- How access to a file fails. -/
inductive FileError where
  | notFound
  | notDirectory
  | isDirectory
  | nameTooLong
  | nulInName
  | notText
deriving DecidableEq, Repr

/-- The message of a failure. -/
def FileError.message : FileError → String
  | notFound => "No such file or directory (os error 2)"
  | notDirectory => "Not a directory (os error 20)"
  | isDirectory => "Is a directory (os error 21)"
  | nameTooLong => "File name too long (os error 36)"
  | nulInName => "file name contained an unexpected NUL byte"
  | notText => "stream did not contain valid UTF-8"

/-- What a file holds. -/
inductive FileContent where
  | text (content : String)
  | image (image : Image)
  /-- An image file that was begun and is not complete. -/
  | partialImage
deriving DecidableEq

/-- The names from the working directory down to a file. A place above it starts with `..` for each
    step up, and one that is counted from the root starts with `/`. -/
abbrev FilePlace := List String

/-- The root. -/
def FilePlace.root : FilePlace := ["/"]

/-- One step up. The root is its own parent. -/
def FilePlace.parent (place : FilePlace) : FilePlace :=
  if place == root then root
  else if place.all (· == "..") then place ++ [".."]
  else place.dropLast

/-- The place that a name leads to, seen from a directory. -/
def FilePlace.child (place : FilePlace) (name : String) : FilePlace :=
  if Path.staysPut name then place
  else if name == ".." then place.parent
  else place ++ [name]

/-- The files that are known, and the directories that are known apart from them: one with a file
    below it is a directory in any case. -/
structure Files where
  entries : List (FilePlace × FileContent)
  directories : List FilePlace

namespace Files

/-- An empty working directory. -/
def empty : Files := ⟨[], []⟩

/-- The content at a place. -/
def content? (fs : Files) (place : FilePlace) : Option FileContent :=
  (fs.entries.find? fun entry => entry.1 == place).map Prod.snd

/-- Puts a content at a place, in the stead of what was there. -/
def put (fs : Files) (place : FilePlace) (content : FileContent) : Files :=
  { fs with entries := (place, content) :: fs.entries.filter fun entry => entry.1 != place }

/-- Makes a directory known. -/
def addDirectory (fs : Files) (place : FilePlace) : Files :=
  { fs with directories := place :: fs.directories }

/-- Whether a place is a directory. -/
def isDirectory (fs : Files) (place : FilePlace) : Bool :=
  place == FilePlace.root || place.all (· == "..") || fs.directories.contains place ||
    fs.entries.any fun entry => place.isPrefixOf entry.1 && place.length < entry.1.length

/-! ## Paths -/

/-- The longest name of a file, in bytes. -/
def nameLimit : Nat := 255

/-- The longest path, in bytes. -/
def pathLimit : Nat := 4095

/-- Walks from a directory along one name, which must lead to a directory. -/
def enter (fs : Files) (place : FilePlace) (name : String) : Except FileError FilePlace :=
  let next := place.child name
  if Path.staysPut name || name == ".." then .ok next
  else if nameLimit < name.utf8ByteSize then .error .nameTooLong
  else if fs.isDirectory next then .ok next
  else if (fs.content? next).isSome then .error .notDirectory
  else .error .notFound

/-- Walks from a directory along names that must all lead to directories. -/
def enterAll (fs : Files) : FilePlace → List String → Except FileError FilePlace
  | place, [] => .ok place
  | place, name :: names =>
    match fs.enter place name with
    | .ok next => fs.enterAll next names
    | .error err => .error err

/-- What a path leads to. -/
inductive Destination where
  | directory
  /-- A place whose directory exists, with whether the path went on with a slash. -/
  | place (place : FilePlace) (slash : Bool)

/-- The names of a path, the empty ones at its end cut off, and whether any was. -/
def splitPath (path : String) : List String × Bool :=
  let names := Path.names path
  let kept := (names.reverse.dropWhile String.isEmpty).reverse
  (kept, kept.length < names.length)

/-- The directory that a path counts from. -/
def startOf (path : String) : FilePlace := if Path.isAbsolute path then FilePlace.root else []

/-- The place that a path names when every directory on it exists. -/
def placeOf (path : String) : FilePlace := (Path.names path).foldl FilePlace.child (startOf path)

/-- Resolves a path up to its last name. -/
def resolve (fs : Files) (path : String) : Except FileError Destination :=
  if path.toList.contains '\x00' then .error .nulInName
  else if path.isEmpty then .error .notFound
  else if pathLimit < path.utf8ByteSize then .error .nameTooLong
  else
    let (names, slash) := splitPath path
    match names.getLast? with
    | none => .ok .directory
    | some last =>
      match fs.enterAll (startOf path) names.dropLast with
      | .error err => .error err
      | .ok place =>
        let target := place.child last
        if last == "." || last == ".." || fs.isDirectory target then .ok .directory
        else if nameLimit < last.utf8ByteSize then .error .nameTooLong
        else .ok (.place target slash)

/-! ## Access -/

/-- The content of the file at a path. -/
def read? (fs : Files) (path : String) : Except FileError FileContent :=
  match fs.resolve path with
  | .error err => .error err
  | .ok .directory => .error .isDirectory
  | .ok (.place place slash) =>
    match fs.content? place with
    | none => .error .notFound
    | some content => if slash then .error .notDirectory else .ok content

/-- The text of the file at a path. The bytes of an image are no text. -/
def readText? (fs : Files) (path : String) : Except FileError String :=
  match fs.read? path with
  | .error err => .error err
  | .ok (.text content) => .ok content
  | .ok _ => .error .notText

/-- The place of the file that is created, or emptied, at a path. A path that goes on with a slash
    can only be a directory. -/
def create? (fs : Files) (path : String) : Except FileError FilePlace :=
  match fs.resolve path with
  | .error err => .error err
  | .ok .directory => .error .isDirectory
  | .ok (.place place slash) => if slash then .error .isDirectory else .ok place

/-- Writes a text at a path, with the directories it needs. -/
def putText (fs : Files) (path content : String) : Files :=
  fs.put (placeOf path) (.text content)

/-- The files that are not as they were before. -/
def changes (before after : Files) : List (FilePlace × FileContent) :=
  after.entries.filter fun entry => before.content? entry.1 != some entry.2

end Files

end Relief
