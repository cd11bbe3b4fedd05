/-! The faults that make a text no well-formed XML document. -/
namespace RelaxDoc.Xml

/-- Why a text is not a well-formed document. -/
inductive Fault where
  | unexpectedEnd
  | expected (what : String)
  | illegalCharacter (c : Char)
  | malformedName
  | malformedComment
  | malformedReference
  | unknownMarkup
  | strayDeclaration
  | sectionEndInText
  | angleInValue
  | unknownEntity (name : String)
  | entitiesTooDeep
  | tooManyReferences
  | unknownQualifier (qualifier : String)
  | reservedNamespace (uri : String)
  | repeatedDeclaration (qualifier : String)
  | repeatedAttribute (name : String)
  | mismatchedEndTag (name : String)
  | strayEndTag (name : String)
  | unclosedElement
  | noRootElement
  deriving DecidableEq, Repr

/-- The wording of a fault. -/
def Fault.message : Fault → String
  | .unexpectedEnd => "the input ends too early"
  | .expected what => s!"{what} is missing"
  | .illegalCharacter c => s!"character {c.toNat} may not stand in a document"
  | .malformedName => "a name is malformed"
  | .malformedComment => "a comment holds two hyphens or ends in one"
  | .malformedReference => "a reference is malformed"
  | .unknownMarkup => "unknown markup"
  | .strayDeclaration => "an XML declaration may only begin the input"
  | .sectionEndInText => "the end of a CDATA section stands in text"
  | .angleInValue => "an attribute value holds '<'"
  | .unknownEntity name => s!"entity '{name}' is not declared"
  | .entitiesTooDeep => "entity references are nested too deeply"
  | .tooManyReferences => "too many entity references"
  | .unknownQualifier qualifier => s!"namespace qualifier '{qualifier}' is not declared"
  | .reservedNamespace uri => s!"namespace '{uri}' may not be declared here"
  | .repeatedDeclaration qualifier => s!"namespace qualifier '{qualifier}' is declared twice"
  | .repeatedAttribute name => s!"attribute '{name}' is given twice"
  | .mismatchedEndTag name => s!"end tag '{name}' does not match its start tag"
  | .strayEndTag name => s!"end tag '{name}' has no start tag"
  | .unclosedElement => "an element is not closed"
  | .noRootElement => "there is no root element"

end RelaxDoc.Xml
