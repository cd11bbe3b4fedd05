import RelaxDoc.File.Tree
import RelaxDoc.Log
import RelaxDoc.Text.Utf8

/-! Writing several files, and undoing what was written when one of them fails. -/
namespace RelaxDoc

/-- A file to be written. -/
structure OutputFile where
  path : String
  content : String
  deriving DecidableEq, Repr

/-- What was written so far, in order: files, and the outermost directories made for them. -/
structure Written where
  files : List String
  directories : List String
  deriving DecidableEq, Repr

namespace FileTree

/-- The outermost directory around a file that does not exist. -/
def outermostMissing? (tree : FileTree) (directory : String) : Option String :=
  ((Path.ancestors directory).takeWhile fun path => path ≠ "" && !tree.has path).getLast?

/-- The directory that a file goes to, unless it is the working directory. -/
def directoryOf? (path : String) : Option String := (Path.parent? path).filter (· ≠ "")

/-- Makes the directory of a file, and notes what was made for it. -/
def prepare (tree : FileTree) (written : Written) (path : String) :
    FileTree × Written × Option IoError :=
  match directoryOf? path with
  | none => (tree, written, none)
  | some directory =>
    match tree.makeDirectories (Path.ancestors directory) with
    | (made, some error) => (made, written, some error)
    | (made, none) =>
      (made, { written with
        directories := written.directories ++ (tree.outermostMissing? directory).toList }, none)

/-- Writes files one after the other up to the first failure. -/
def writeAll (tree : FileTree) (written : Written) :
    List OutputFile → FileTree × Written × Option IoError
  | [] => (tree, written, none)
  | file :: rest =>
    match tree.prepare written file.path with
    | (made, written, some error) => (made, written, some error)
    | (made, written, none) =>
      match made.write file.path (Text.encode file.content) with
      | .error error => (made, written, some error)
      | .ok tree => tree.writeAll { written with files := written.files ++ [file.path] } rest

/-- The message about something that could not be removed. -/
def leftMessage (path : String) (error : IoError) : Message :=
  ⟨.warn, s!"Could not remove '{path}': {error.message}"⟩

/-- Removes paths one after the other, with a message about each that cannot be removed. -/
def removeAll (remove : FileTree → String → Except IoError FileTree) (tree : FileTree) :
    List String → Traced FileTree
  | [] => pure tree
  | path :: rest =>
    match remove tree path with
    | .ok less => removeAll remove less rest
    | .error error => do
      Traced.sayAll [leftMessage path error]
      removeAll remove tree rest

/-- Removes what was written, the last first: files, then directories. -/
def rollBack (tree : FileTree) (written : Written) : Traced FileTree := do
  let less ← removeAll removeFile tree written.files.reverse
  removeAll removeDirectory less written.directories.reverse

/-- Writes files; if one of them fails, what was written is removed again. -/
def writeFiles (tree : FileTree) (files : List OutputFile) : Traced (FileTree × Except Error Unit) :=
  match tree.writeAll ⟨[], []⟩ files with
  | (after, _, none) => do
    let count := files.length
    Traced.say .info s!"Wrote {count} file(s)"
    return (after, .ok ())
  | (after, written, some error) => do
    let count := written.files.length
    Traced.say .warn s!"Writing output failed, removing {count} partial file(s)"
    return (← after.rollBack written, .error (.io error))

end FileTree

end RelaxDoc
