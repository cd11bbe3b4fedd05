import RelaxDoc.Xml.Binding

/-! The namespaces of a schema document. -/
namespace RelaxDoc.Namespace

/-- The namespace of RELAX NG patterns. -/
def structural : String := "http://relaxng.org/ns/structure/1.0"

/-- The namespace of documentation in a schema. -/
def compatibility : String := "http://relaxng.org/ns/compatibility/annotations/1.0"

/-- The namespaces whose markup is often embedded in a schema. -/
def embedded : List String :=
  [compatibility, "http://docbook.org/ns/docbook", "http://purl.oclc.org/dsdl/schematron",
   "http://www.w3.org/1999/xhtml", "http://www.w3.org/1999/xlink"]

end RelaxDoc.Namespace
