import RelaxDoc.Error

/-! The formats of reports. -/
namespace RelaxDoc

/-- A report format. -/
inductive Format where
  | xml
  | html
  | json
  deriving DecidableEq, Repr

namespace Format

/-- The name of a format. -/
def name : Format → String
  | .xml => "xml"
  | .html => "html"
  | .json => "json"

/-- The format with a name, which may be written in capitals. -/
def ofName (name : String) : Except Error Format :=
  let lower := name.toLower
  if lower = "xml" then .ok .xml
  else if lower = "html" then .ok .html
  else if lower = "json" then .ok .json
  else .error (.unsupportedFormat name)

end Format

end RelaxDoc
