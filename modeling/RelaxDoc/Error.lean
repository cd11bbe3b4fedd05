import RelaxDoc.Text.Utf8
import RelaxDoc.Xml.Fault

/-! The ways a run can fail, their wording and their exit codes. -/
namespace RelaxDoc

/-- A failed operation on files. -/
inductive IoError where
  | notFound
  | fileExists
  | notDirectory
  | isDirectory
  | directoryNotEmpty
  | stated (text : String)
  deriving DecidableEq, Repr

/-- The wording of a failed operation, with the number the system gives it. -/
def IoError.message : IoError → String
  | .notFound => "No such file or directory (os error 2)"
  | .fileExists => "File exists (os error 17)"
  | .notDirectory => "Not a directory (os error 20)"
  | .isDirectory => "Is a directory (os error 21)"
  | .directoryNotEmpty => "Directory not empty (os error 39)"
  | .stated text => text

/-- What makes an input no schema document. -/
inductive Malformation where
  | fault (f : Xml.Fault)
  | notUtf8 (source : Option String) (error : Text.Utf8Error)
  | notPattern (tag : String)
  | stated (text : String)
  deriving DecidableEq, Repr

/-- The wording of a malformation. -/
def Malformation.message : Malformation → String
  | .fault f => f.message
  | .notUtf8 (some path) error => s!"'{path}' is not valid UTF-8: {error.message}"
  | .notUtf8 none error => s!"input is not valid UTF-8: {error.message}"
  | .notPattern tag => s!"'{tag}' is not a RELAX NG pattern or grammar"
  | .stated text => text

/-- A limit that an input exceeds, with the measure and the limit. -/
inductive Excess where
  | size (bytes limit : Nat)
  | depth (reached limit : Nat)
  | nodes (count limit : Nat)
  | stated (text : String)
  deriving DecidableEq, Repr

/-- The wording of an excess. -/
def Excess.message : Excess → String
  | .size bytes limit => s!"XML size {bytes} bytes exceeds maximum {limit} bytes"
  | .depth reached limit => s!"XML depth {reached} exceeds maximum {limit}"
  | .nodes count limit => s!"Grammar node count {count} exceeds maximum {limit}"
  | .stated text => text

/-- A breach of the structure of schema documents, with the place where it was found. -/
structure Violation where
  message : String
  reason : Option String
  path : Option String
  deriving DecidableEq, Repr

/-- The wording of a violation. -/
def Violation.text (v : Violation) : String :=
  v.message ++
    (match v.reason with
      | some reason => s!"\n\nReason: {reason}"
      | none => "") ++
    (match v.path with
      | some path => s!"\n\nPath: {path}"
      | none => "")

/-- Why a run failed. -/
inductive Error where
  | invocation (text : String)
  | inputNotFound (path : String)
  | malformed (m : Malformation)
  | wrongNamespace (uri : Option String) (tag : String)
  | violation (v : Violation)
  | unsupportedFormat (name : String)
  | interrupted
  | limitExceeded (e : Excess)
  | resource (text : String)
  | output (text : String)
  | io (e : IoError)
  deriving DecidableEq, Repr

namespace Error

/-- The wording of a failure. -/
def message : Error → String
  | .invocation text => s!"invalid invocation: {text}"
  | .inputNotFound path => s!"file not found '{path}'"
  | .malformed m => s!"failed to parse the XML input: {m.message}"
  | .wrongNamespace uri tag =>
    let shown := uri.getD "none"
    s!"wrong namespace in root element '{tag}' (namespace: {shown}); expected a RELAX NG element"
  | .violation v => s!"schema validation error: {v.text}"
  | .unsupportedFormat name =>
    s!"unsupported output format '{name}' (expected xml, html or json)"
  | .interrupted => "interrupted"
  | .limitExceeded e => s!"limit exceeded: {e.message}"
  | .resource text => s!"resource error: {text}"
  | .output text => s!"output error: {text}"
  | .io e => s!"I/O error: {e.message}"

/-- The exit code of a run that fails. -/
def exitCode : Error → Nat
  | .invocation _ | .unsupportedFormat _ => 50
  | .inputNotFound _ | .io _ => 40
  | .malformed _ | .wrongNamespace _ _ | .violation _ | .limitExceeded _ => 20
  | .interrupted => 200
  | .resource _ | .output _ => 255

end Error

end RelaxDoc
