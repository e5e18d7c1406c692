set_option autoImplicit false

/-! # Paths: texts that name files

A path is a text of names with slashes between them. Everything a path says by itself is here; what
it leads to depends on the files there are. -/

namespace Relief.Path

/-- The part of a text before its first slash, and the parts after each slash. -/
def parts : List Char → List Char × List (List Char)
  | [] => ([], [])
  | c :: cs =>
    let (first, rest) := parts cs
    if c = '/' then ([], first :: rest) else (c :: first, rest)

/-- The names of a path in order. Two slashes in a row have an empty name between them, and so has
    a slash at either end beside it. -/
def names (path : String) : List String :=
  let (first, rest) := parts path.toList
  (first :: rest).map String.ofList

/-- Whether a path counts from the root. -/
def isAbsolute (path : String) : Bool := path.toList.head? == some '/'

/-- Whether a name leads nowhere: an empty one, and a single point. -/
def staysPut (name : String) : Bool := name.isEmpty || name == "."

/-- The last name of a path that leads anywhere, if it does not lead up. -/
def fileName? (path : String) : Option String :=
  match ((names path).filter fun name => !staysPut name).getLast? with
  | none => none
  | some name => if name == ".." then none else some name

/-- What follows the last point of a path's last name. A name that begins with its only point has
    no extension. -/
def extension? (path : String) : Option String :=
  match fileName? path with
  | none => none
  | some name =>
    let after := name.toList.reverse.takeWhile (· != '.')
    if after.length + 1 < name.toList.length then some (String.ofList after.reverse) else none

end Relief.Path
