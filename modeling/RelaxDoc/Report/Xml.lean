import RelaxDoc.Record.Basic
import RelaxDoc.Xml.Writer

/-! The XML report. -/
namespace RelaxDoc.Report

open Xml (Markup)

/-- An element that holds a text, empty if there is none. -/
def textMarkup (name text : String) : List Markup :=
  if text = "" then [.emptyTag name []] else [.startTag name [], .text text, .endTag name]

/-- The element for a parameter. -/
def paramMarkup (param : Param) : List Markup :=
  [.startTag "param" [⟨"name", param.name⟩], .text param.value, .endTag "param"]

/-- The element for a value. -/
def enumValueMarkup (value : EnumValue) : List Markup :=
  if value.description = "" then [.emptyTag "value" [⟨"name", value.value⟩]]
  else .startTag "value" [⟨"name", value.value⟩] ::
    textMarkup "description" value.description ++ [.endTag "value"]

/-- The element for a type, empty if there is nothing to say about it. -/
def typeMarkup : AttributeType → List Markup
  | .primitive datatype =>
    if datatype.description = "" ∧ datatype.params = [] then
      [.emptyTag "type" [⟨"name", datatype.name⟩]]
    else .startTag "type" [⟨"name", datatype.name⟩] ::
      (if datatype.description = "" then [] else textMarkup "description" datatype.description) ++
      datatype.params.flatMap paramMarkup ++ [.endTag "type"]
  | .text => [.emptyTag "type" [⟨"name", "text"⟩]]
  | .enumeration values =>
    if values = [] then [.emptyTag "type" [⟨"name", "enum"⟩]]
    else .startTag "type" [⟨"name", "enum"⟩] ::
      values.flatMap enumValueMarkup ++ [.endTag "type"]
  | .unknown => [.emptyTag "type" []]

/-- The element for an attribute. -/
def attributeMarkup (record : AttributeRecord) : List Markup :=
  .startTag "attribute" [] :: textMarkup "name" record.name ++
    textMarkup "namespace" (record.uri.getD "") ++
    textMarkup "description" record.description ++ typeMarkup record.type ++
    textMarkup "use" record.use.text ++ [.endTag "attribute"]

/-- The element for a child. -/
def childMarkup (child : ChildRef) : Markup :=
  .emptyTag "child" [⟨"id", toString child.id⟩]

/-- The element for an element. -/
def elementMarkup (record : ElementRecord) : List Markup :=
  .startTag "element" [⟨"name", record.name⟩, ⟨"id", toString record.id⟩] ::
    textMarkup "namespace" (record.uri.getD "") ++
    textMarkup "description" record.description ++ record.children.map childMarkup ++
    record.attributes.flatMap attributeMarkup ++ [.endTag "element"]

/-- The markup of the report. -/
def documentationMarkup (documentation : Documentation) : List Markup :=
  if documentation.elements = [] then [.emptyTag "documentation" []]
  else .startTag "documentation" [] ::
    documentation.elements.flatMap elementMarkup ++ [.endTag "documentation"]

/-- The XML report, maybe indented and maybe behind a declaration. -/
def xml (indent : Option Nat) (declaration : Bool) (documentation : Documentation) : String :=
  Xml.write indent
    ((if declaration then [.declaration] else []) ++ documentationMarkup documentation)

end RelaxDoc.Report
