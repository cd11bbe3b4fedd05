import RelaxDoc.Json.Printer
import RelaxDoc.Record.Basic

/-! The JSON report. -/
namespace RelaxDoc.Report

/-- A text or null. -/
def optionJson : Option String → Json
  | some text => .string text
  | none => .null

/-- A parameter as JSON. -/
def paramJson (param : Param) : Json :=
  .object [("name", .string param.name), ("value", .string param.value)]

/-- A value as JSON. -/
def enumValueJson (value : EnumValue) : Json :=
  .object [("value", .string value.value), ("description", .string value.description)]

/-- A type as JSON, told apart by its kind. -/
def typeJson : AttributeType → Json
  | .primitive datatype =>
    .object [("kind", .string "primitive"), ("name", .string datatype.name),
      ("description", .string datatype.description),
      ("params", .array (datatype.params.map paramJson))]
  | .text => .object [("kind", .string "text")]
  | .enumeration values =>
    .object [("kind", .string "enum"), ("values", .array (values.map enumValueJson))]
  | .unknown => .object [("kind", .string "unknown")]

/-- The record of an attribute as JSON. -/
def attributeJson (record : AttributeRecord) : Json :=
  .object [("name", .string record.name), ("namespace", optionJson record.uri),
    ("description", .string record.description), ("use", .string record.use.text),
    ("type", typeJson record.type)]

/-- A reference to a child as JSON. -/
def childJson (child : ChildRef) : Json :=
  .object [("id", .number child.id), ("name", .string child.name)]

/-- The record of an element as JSON. -/
def elementJson (record : ElementRecord) : Json :=
  .object [("id", .number record.id), ("name", .string record.name),
    ("namespace", optionJson record.uri), ("description", .string record.description),
    ("children", .array (record.children.map childJson)),
    ("attributes", .array (record.attributes.map attributeJson))]

/-- The documentation as JSON. -/
def documentationJson (documentation : Documentation) : Json :=
  .object [("elements", .array (documentation.elements.map elementJson))]

/-- The JSON report, indented or not. -/
def json (pretty : Bool) (documentation : Documentation) : String :=
  if pretty then (documentationJson documentation).pretty
  else (documentationJson documentation).compact

end RelaxDoc.Report
