/-!
Paths of files. A path is a list of names; empty names and single points in between say nothing
and are dropped.
-/

namespace Peephole

structure Path where
  isAbsolute : Bool
  names : List String
  deriving DecidableEq, Repr

namespace Path

def ofText (text : String) : Path :=
  ⟨text.toList.head? == some '/',
    ((text.toList.splitOn '/').map String.ofList).filter fun name => name != "" && name != "."⟩

def text (path : Path) : String :=
  let joined := "/".intercalate path.names
  if path.isAbsolute then "/" ++ joined else if path.names.isEmpty then "." else joined

/-- The last name, if there is one. -/
def name (path : Path) : String :=
  path.names.getLastD ""

/-- A name up to its last point, unless the point is its first or last character. -/
def stemOf (name : String) : String :=
  let reversed := name.toList.reverse
  match reversed.dropWhile (· != '.') with
  | _ :: rest =>
    if rest.isEmpty || reversed.head? == some '.' then name else String.ofList rest.reverse
  | [] => name

/-- The last name without its extension. -/
def stem (path : Path) : String :=
  stemOf path.name

/-- The path of the directory that a path is in. -/
def directory (path : Path) : Path :=
  { path with names := path.names.dropLast }

/-- The path of a name inside a directory. -/
def child (path : Path) (name : String) : Path :=
  { path with names := path.names ++ (ofText name).names }

end Path

end Peephole
