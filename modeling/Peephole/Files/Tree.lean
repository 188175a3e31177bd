import Peephole.Files.Path
import Peephole.Text.Encoding

/-!
Trees of text files below a working directory. Places are lists of names from there; a path
leads to a place through directories that exist, two points leading back up. Paths may lead out of
the working directory, to what every system has. Before a path leads anywhere its text has to be
a possible one: free of zeros and not too long.
-/

namespace Peephole

/-- A place in a tree: the names on the way to it. A place outside the working directory is told
from the directory above it or from the root. -/
abbrev Place := List String

namespace Place

/-- The directory that the working directory is in. -/
def above : Place := [".."]

/-- The directory that all others are in. -/
def root : Place := ["/"]

def isInside (place : Place) : Bool :=
  place.head? != some ".." && place.head? != some "/"

/-- The directory that a place is in. -/
def parent (place : Place) : Place :=
  if place.isEmpty then above
  else if place == above || place == root then place
  else place.dropLast

end Place

structure FileTree where
  directories : List Place
  files : List (Place × String)

namespace FileTree

/-- A working directory that holds nothing. -/
def bare : FileTree := ⟨[], []⟩

/-- Directories that every system has. -/
def outerDirectories : List Place :=
  [Place.above, Place.root] ++
    ["bin", "boot", "dev", "etc", "home", "lib", "media", "mnt", "opt", "proc", "root", "run",
      "sbin", "srv", "sys", "tmp", "usr", "var"].map (["/", ·])

/-- Files that every system has. -/
def outerFiles : List (Place × String) :=
  [(["/", "dev", "null"], "")]

def isDirectory (tree : FileTree) (place : Place) : Bool :=
  place.isEmpty || outerDirectories.contains place || tree.directories.contains place

def file? (tree : FileTree) (place : Place) : Option String :=
  (tree.files ++ outerFiles).lookup place

/-- The length from which on names are too long. -/
def nameLimit : Nat := 256

/-- The place that names lead to from a directory. -/
def follow (tree : FileTree) (place : Place) : List String → Except Fault Place
  | [] => .ok place
  | "." :: rest => tree.follow place rest
  | ".." :: rest => tree.follow (Place.parent place) rest
  | name :: rest =>
    let next := place ++ [name]
    if nameLimit ≤ Text.storedSize name then .error .nameTooLong
    else if rest.isEmpty || tree.isDirectory next then tree.follow next rest
    else .error (if (tree.file? next).isSome then .notADirectory else .noSuchFile)

/-- The length from which on paths are too long. -/
def pathLimit : Nat := 4096

/-- Whether a text can lead anywhere. -/
def checkPathText (text : String) : Except Fault Unit := do
  Text.checkUnits Text.isByteHalf text
  if text.toList.contains '\x00' then throw .embeddedZero
  if pathLimit ≤ Text.storedSize text then throw .nameTooLong

def checkPath (path : Path) : Except Fault Unit :=
  checkPathText path.text

/-- Where a path starts. -/
def start (path : Path) : Place :=
  if path.isAbsolute then Place.root else []

/-- The names on a path as they are in the tree. -/
def storedNames (path : Path) : List String :=
  path.names.map Text.joined

def locate (tree : FileTree) (path : Path) : Except Fault Place := do
  checkPath path
  tree.follow (start path) (storedNames path)

def readText (tree : FileTree) (path : Path) : Except Fault String := do
  let place ← tree.locate path
  match tree.file? place with
  | some text => return text
  | none => throw (if tree.isDirectory place then .isADirectory else .noSuchFile)

/-- Sets the text of a file, in the file's place if it is there already, else at the end. -/
def setFile : List (Place × String) → Place → String → List (Place × String)
  | [], place, text => [(place, text)]
  | (present, old) :: rest, place, text =>
    if present == place then (present, text) :: rest else (present, old) :: setFile rest place text

def writeText (tree : FileTree) (path : Path) (text : String) : Except Fault FileTree := do
  let place ← tree.locate path
  if tree.isDirectory place then throw .isADirectory
  Text.checkStorable text
  return { tree with files := setFile tree.files place text }

/-- The path of a text that names something. The empty text names nothing, and one that ends in a
slash names a directory. -/
def namedPath (name : String) : Except Fault Path := do
  checkPathText name
  if name.isEmpty then throw .noSuchFile
  let path := Path.ofText name
  if name.endsWith "/" || name.endsWith "/." then
    return { path with names := path.names ++ ["."] }
  else return path

def readNamed (tree : FileTree) (name : String) : Except Fault String := do
  tree.readText (← namedPath name)

def writeNamed (tree : FileTree) (name text : String) : Except Fault FileTree := do
  tree.writeText (← namedPath name) text

/-- Makes the directories that names lead through from a directory. -/
def makeFrom (tree : FileTree) (place : Place) : List String → Except Fault FileTree
  | [] => .ok tree
  | ".." :: rest => tree.makeFrom (Place.parent place) rest
  | name :: rest =>
    let next := place ++ [name]
    if nameLimit ≤ Text.storedSize name then .error .nameTooLong
    else if tree.isDirectory next then tree.makeFrom next rest
    else if (tree.file? next).isSome then
      .error (if rest.isEmpty then .fileExists else .notADirectory)
    else FileTree.makeFrom { tree with directories := tree.directories ++ [next] } next rest

/-- Makes a directory, and those it is in. What is there already is left alone. -/
def makeDirectory (tree : FileTree) (path : Path) : Except Fault FileTree := do
  checkPath path
  tree.makeFrom (start path) (storedNames path)

/-- Puts a file into a tree, and makes the directories it is in. -/
def place (tree : FileTree) (path : Path) (text : String) : Except Fault FileTree := do
  (← tree.makeDirectory path.directory).writeText path text

/-- The tree of some files, put there one after the other. -/
def ofFiles (files : List (Path × String)) : Except Fault FileTree :=
  files.foldlM (fun tree (path, text) => tree.place path text) bare

/-- The files in the working directory, by the names that lead to them. -/
def insideFiles (tree : FileTree) : List (String × String) :=
  (tree.files.filter fun entry => Place.isInside entry.1).map fun (place, text) =>
    ("/".intercalate place, text)

end FileTree

end Peephole
