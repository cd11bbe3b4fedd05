import RelaxDoc.Diagram.Dot
import RelaxDoc.Diagram.Draw
import RelaxDoc.File.Write
import RelaxDoc.Xml.Writer

/-! The HTML page set: an index page, a page for each element, and its diagram beside it. -/
namespace RelaxDoc.Report

open Xml (escaped)

/-- The look of the pages. -/
def styleSheet : String :=
  "body \x7b font-family: sans-serif; margin: 2em; \x7d\n" ++
  "table \x7b border-collapse: collapse; \x7d\n" ++
  "th, td \x7b border: 1px solid #a2a4aa; padding: 0.2em 0.6em; text-align: left; \x7d\n" ++
  "code \x7b background: #c0ffee; \x7d\n"

/-- A page with a title. -/
def page (title body : String) : String :=
  "<!DOCTYPE html>\n<html>\n<head>\n<meta charset=\"utf-8\">\n<title>" ++ escaped title ++
  "</title>\n<style>\n" ++ styleSheet ++ "</style>\n</head>\n<body>\n" ++ body ++
  "</body>\n</html>\n"

/-- A namespace in parentheses, if there is one. -/
def namespaceNote : Option String → String
  | some uri => " <small>(" ++ escaped uri ++ ")</small>"
  | none => ""

/-- The entry of an element on the index page. -/
def indexEntry (record : ElementRecord) : String :=
  "<li><a href=\"elements/" ++ toString record.id ++ ".html\">" ++ escaped record.name ++
  "</a>" ++ namespaceNote record.uri ++ "</li>\n"

/-- The index page. -/
def indexPage (documentation : Documentation) : String :=
  page "Elements" ("<h1>Elements</h1>\n<ul>\n" ++
    String.join (documentation.elements.map indexEntry) ++ "</ul>\n")

/-- The type of an attribute on a page. -/
def typeCell : AttributeType → String
  | .enumeration values =>
    " | ".intercalate (values.map fun value => "<code>" ++ escaped value.value ++ "</code>")
  | type => escaped (type.name?.getD "unknown")

/-- The row of an attribute on a page. -/
def attributeRow (record : AttributeRecord) : String :=
  "<tr><td>" ++ escaped record.name ++ "</td><td>" ++ escaped (record.uri.getD "") ++
  "</td><td>" ++ typeCell record.type ++ "</td><td>" ++ record.use.text ++ "</td><td>" ++
  escaped record.description ++ "</td></tr>\n"

/-- The entry of a child on a page. -/
def childEntry (child : ChildRef) : String :=
  "<li><a href=\"" ++ toString child.id ++ ".html\">" ++ escaped child.name ++ "</a></li>\n"

/-- The children on a page, if there are any. -/
def childList (children : List ChildRef) : String :=
  if children = [] then ""
  else "<h2>Children</h2>\n<ul>\n" ++ String.join (children.map childEntry) ++ "</ul>\n"

/-- The attributes on a page, if there are any. -/
def attributeTable (attributes : List AttributeRecord) : String :=
  if attributes = [] then ""
  else "<h2>Attributes</h2>\n<table>\n" ++
    "<tr><th>Name</th><th>Namespace</th><th>Type</th><th>Use</th><th>Description</th></tr>\n" ++
    String.join (attributes.map attributeRow) ++ "</table>\n"

/-- The namespace on a page. -/
def namespaceLine : Option String → String
  | some uri => "<p>Namespace: <code>" ++ escaped uri ++ "</code></p>\n"
  | none => "<p>Namespace: none</p>\n"

/-- The description on a page, if there is one. -/
def descriptionLine (description : String) : String :=
  if description = "" then "" else "<p>" ++ escaped description ++ "</p>\n"

/-- The page of an element, with a link to the index page of this name. -/
def elementPage (indexName : String) (record : ElementRecord) : String :=
  page record.name
    ("<p><a href=\"../" ++ escaped indexName ++ "\">Index</a></p>\n" ++
    "<h1>" ++ escaped record.name ++ "</h1>\n" ++ namespaceLine record.uri ++
    descriptionLine record.description ++ childList record.children ++
    attributeTable record.attributes ++
    "<h2>Diagram</h2>\n<p><a href=\"" ++ toString record.id ++
    ".dot\">Content model (Graphviz)</a></p>\n")

/-- The files of an element in a directory: its page, and its diagram if the index has
its id. -/
def elementFiles (g : Grammar) (index : ElementIndex) (detail : Detail)
    (directory indexName : String) (record : ElementRecord) : List OutputFile :=
  let elements := Path.join directory "elements"
  ⟨Path.join elements (toString record.id ++ ".html"), elementPage indexName record⟩ ::
    match index.nodeOf? record.id with
    | some node =>
      [⟨Path.join elements (toString record.id ++ ".dot"),
        Dot.text record.name (g.diagram detail node)⟩]
    | none => []

/-- The files of the page set in a directory, the index page first. -/
def pageSet (g : Grammar) (index : ElementIndex) (detail : Detail) (directory indexName : String)
    (documentation : Documentation) : List OutputFile :=
  ⟨Path.join directory indexName, indexPage documentation⟩ ::
    documentation.elements.flatMap (elementFiles g index detail directory indexName)

/-- The messages of drawing the diagrams of the page set. -/
def pageSetMessages (g : Grammar) (index : ElementIndex) (detail : Detail)
    (documentation : Documentation) : List Message :=
  documentation.elements.flatMap fun record =>
    match index.nodeOf? record.id with
    | some node => g.diagramMessages detail node
    | none => []

end RelaxDoc.Report
