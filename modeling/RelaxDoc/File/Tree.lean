import RelaxDoc.Error
import RelaxDoc.File.Path

/-! Trees of files and directories, and the operations on them. -/
namespace RelaxDoc

/-- What stands at a place of a file tree. -/
inductive Entry where
  | file (content : List UInt8)
  | directory
  deriving DecidableEq, Repr

/-- A place by the names that lead to it from the root of the file system. -/
abbrev Place := List String

/-- What is known to stand in a file system, and the working directory, from which relative paths
start. -/
structure FileTree where
  working : Place
  known : List (Place × Entry)
  deriving DecidableEq, Repr

namespace FileTree

/-- No file, and no directory but the working directory and those around it. -/
def bare (working : Place) : FileTree := ⟨working, []⟩

/-- A bare tree with a temporary working directory. -/
def empty : FileTree := bare ["tmp", "work"]

/-- What stands at a place. The working directory and those around it are always there. -/
def get? (tree : FileTree) (place : Place) : Option Entry :=
  if place <+: tree.working then some .directory else tree.known.lookup place

/-- What stands at a place that is given from the working directory. -/
def find? (tree : FileTree) (place : Place) : Option Entry := tree.get? (tree.working ++ place)

/-- What stands in the working directory, at places that are given from there. -/
def entries (tree : FileTree) : List (Place × Entry) :=
  tree.known.filterMap fun (place, entry) => (tree.working.isPrefixOf? place).map (·, entry)

/-- The tree without what stands at a place. -/
def erase (tree : FileTree) (place : Place) : FileTree :=
  { tree with known := tree.known.filter fun entry => entry.1 ≠ place }

/-- The tree with an entry at a place. -/
def insert (tree : FileTree) (place : Place) (entry : Entry) : FileTree :=
  { tree with known := (tree.erase place).known ++ [(place, entry)] }

/-- The tree without a place and all that is in it. -/
def eraseBelow (tree : FileTree) (place : Place) : FileTree :=
  { tree with known := tree.known.filter fun entry => !place.isPrefixOf entry.1 }

/-- The directory around a place. The root is in none, and leads back to itself. -/
def outward (place : Place) : Place := place.dropLast

/-- The directory that a component leads to from a directory. -/
def enter (tree : FileTree) (here : Place) (component : String) : Except IoError Place :=
  if component = "." then .ok here
  else if component = ".." then .ok (outward here)
  else match tree.get? (here ++ [component]) with
    | none => .error .notFound
    | some (.file _) => .error .notDirectory
    | some .directory => .ok (here ++ [component])

/-- The place that a path starts from: the root, or the working directory. -/
def start (tree : FileTree) (path : String) : Place :=
  if Path.isAbsolute path then [] else tree.working

/-- Where a path leads: a place, what stands there, and whether the path asks for a
directory by a slash at its end. -/
structure Target where
  place : Place
  entry : Option Entry
  slash : Bool

/-- Where a path leads. All directories on the way must exist. -/
def locate (tree : FileTree) (path : String) : Except IoError Target :=
  let components := Path.components path
  if path = "" then .error .notFound
  else match components.getLast? with
    | none => .ok ⟨tree.start path, some .directory, true⟩
    | some last => do
      let here ← components.dropLast.foldlM tree.enter (tree.start path)
      if last = "." then return ⟨here, some .directory, true⟩
      else if last = ".." then return ⟨outward here, some .directory, true⟩
      else return ⟨here ++ [last], tree.get? (here ++ [last]), path.toList.getLast? = some '/'⟩

/-- What a path leads to. -/
def stat (tree : FileTree) (path : String) : Except IoError Entry := do
  let target ← tree.locate path
  match target.entry with
  | none => throw .notFound
  | some (.file content) => if target.slash then throw .notDirectory else return .file content
  | some .directory => return .directory

/-- Whether a path leads to something. -/
def has (tree : FileTree) (path : String) : Bool :=
  match tree.stat path with
  | .ok _ => true
  | .error _ => false

/-- Whether a path leads to a directory. -/
def hasDirectory (tree : FileTree) (path : String) : Bool :=
  match tree.stat path with
  | .ok .directory => true
  | _ => false

/-- The content of the file that a path leads to. -/
def read (tree : FileTree) (path : String) : Except IoError (List UInt8) := do
  match ← tree.stat path with
  | .file content => return content
  | .directory => throw .isDirectory

/-- Makes a directory. -/
def makeDirectory (tree : FileTree) (path : String) : Except IoError FileTree := do
  let target ← tree.locate path
  match target.entry with
  | some _ => throw .fileExists
  | none => return tree.insert target.place .directory

/-- Writes a file, new or in the place of another. -/
def write (tree : FileTree) (path : String) (content : List UInt8) : Except IoError FileTree := do
  let target ← tree.locate path
  if target.slash then throw .isDirectory
  match target.entry with
  | some .directory => throw .isDirectory
  | _ => return tree.insert target.place (.file content)

/-- Removes a file. -/
def removeFile (tree : FileTree) (path : String) : Except IoError FileTree := do
  let target ← tree.locate path
  match target.entry with
  | none => throw .notFound
  | some .directory => throw .isDirectory
  | some (.file _) => if target.slash then throw .notDirectory else return tree.erase target.place

/-- Removes a directory and all that is in it. -/
def removeDirectory (tree : FileTree) (path : String) : Except IoError FileTree := do
  let target ← tree.locate path
  match target.entry with
  | none => throw .notFound
  | some (.file _) => throw .notDirectory
  | some .directory => return tree.eraseBelow target.place

/-- Makes the first of `paths`, a directory in the others, as far as they do not exist. What is
made before a failure stays. -/
def makeDirectories (tree : FileTree) : (paths : List String) → FileTree × Option IoError
  | [] => (tree, none)
  | path :: outer =>
    if path = "" then (tree, none)
    else match tree.makeDirectory path with
      | .ok made => (made, none)
      | .error .notFound =>
        match tree.makeDirectories outer with
        | (around, some error) => (around, some error)
        | (around, none) =>
          match around.makeDirectory path with
          | .ok made => (made, none)
          | .error error => (around, if around.hasDirectory path then none else some error)
      | .error error => (tree, if tree.hasDirectory path then none else some error)

end FileTree

end RelaxDoc
