import RelaxDoc.Loader
import RelaxDoc.Report.Format
import RelaxDoc.Report.Html
import RelaxDoc.Report.Json
import RelaxDoc.Report.Xml

/-! Reports in the format that is asked for, on standard output or in files. -/
namespace RelaxDoc

/-- What a conversion needs besides its input. -/
structure Settings where
  format : Format := .xml
  output : Option String := none
  detail : Detail := .full
  pretty : Bool := false
  timing : Bool := false
  loader : Loader := {}
  deriving DecidableEq, Repr

/-- A report that is ready to be written. -/
inductive Rendered where
  | stdout (text : String)
  | files (files : List OutputFile)
  deriving DecidableEq, Repr

namespace Report

/-- The directory of the page set and the name of its index page for an output path. -/
def htmlLocation : Option String → String × String
  | none => ("html", "index.html")
  | some output =>
    (Path.join ((Path.parent? output).getD "") "html", (Path.fileName? output).getD "index.html")

/-- A text on standard output, or in a file if there is one to write. -/
def textReport (output : Option String) (text : String) : Rendered :=
  match output with
  | some path => .files [⟨path, text⟩]
  | none => .stdout text

/-- The report of a grammar and its documentation. -/
def render (settings : Settings) (g : Grammar) (index : ElementIndex)
    (documentation : Documentation) : Rendered :=
  match settings.format with
  | .xml =>
    textReport settings.output
      (xml (if settings.pretty then some 2 else none) settings.pretty documentation ++ "\n")
  | .json => textReport settings.output (json settings.pretty documentation ++ "\n")
  | .html =>
    .files (pageSet g index settings.detail (htmlLocation settings.output).1
      (htmlLocation settings.output).2 documentation)

/-- The messages of making the report. -/
def renderMessages (settings : Settings) (g : Grammar) (index : ElementIndex)
    (documentation : Documentation) : List Message :=
  match settings.format with
  | .html => pageSetMessages g index settings.detail documentation
  | _ => []

end Report

end RelaxDoc
