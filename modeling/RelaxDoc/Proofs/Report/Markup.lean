import RelaxDoc.Proofs.Html.Parts
import RelaxDoc.Proofs.Report.PageSet

/-! The markup of the pages: of which tags they consist, and which texts stand in which of them. -/
namespace RelaxDoc.Report

open Html (Part Spells)
open Html.Part (opening closing enclosed anchor)
open Xml (escaped escapedChars)

section Parts

/-- The parts of a page with a title. -/
def pageParts (title : Part) (body : List Part) : List Part :=
  [.markup ⟨"!doctype".toList, [⟨"html".toList, []⟩]⟩, .words "\n", opening "html", .words "\n",
    opening "head", .words "\n", .markup ⟨"meta".toList, [⟨"charset".toList, "utf-8".toList⟩]⟩,
    .words "\n"] ++ enclosed "title" [title] ++ [.words "\n"] ++
  enclosed "style" [.words "\n", .words styleSheet] ++
  [.words "\n", closing "head", .words "\n", opening "body", .words "\n"] ++ body ++
  [closing "body", .words "\n", closing "html", .words "\n"]

/-- The parts of a namespace in parentheses. -/
def noteParts : Option String → List Part
  | some uri => .words " " :: enclosed "small" [.words "(", .filled uri, .words ")"]
  | none => []

/-- The parts of an entry of the index page. -/
def entryParts (record : ElementRecord) : List Part :=
  enclosed "li" ([anchor ("elements/" ++ pageName record.id), .filled record.name, closing "a"] ++
    noteParts record.uri) ++ [.words "\n"]

/-- The parts of the index page. -/
def indexParts (documentation : Documentation) : List Part :=
  pageParts (.words "Elements") (enclosed "h1" [.words "Elements"] ++ [.words "\n"] ++
    enclosed "ul" (.words "\n" :: documentation.elements.flatMap entryParts) ++ [.words "\n"])

/-- The parts of the type of an attribute. -/
def typeParts : AttributeType → List Part
  | .enumeration values =>
    [.words " | "].intercalate (values.map fun value => enclosed "code" [.filled value.value])
  | .primitive datatype => [.filled datatype.name]
  | .text => [.words "text"]
  | .unknown => [.words "unknown"]

/-- The parts of the row of an attribute. -/
def rowParts (record : AttributeRecord) : List Part :=
  enclosed "tr" (enclosed "td" [.filled record.name] ++
    enclosed "td" [.filled (record.uri.getD "")] ++ enclosed "td" (typeParts record.type) ++
    enclosed "td" [.words record.use.text] ++ enclosed "td" [.filled record.description]) ++
  [.words "\n"]

/-- The parts of the head of a table. -/
def headParts (titles : List String) : List Part :=
  enclosed "tr" (titles.flatMap fun title => enclosed "th" [.words title]) ++ [.words "\n"]

/-- The parts of the attributes of an element, if there are any. -/
def tableParts (attributes : List AttributeRecord) : List Part :=
  if attributes = [] then []
  else enclosed "h2" [.words "Attributes"] ++ [.words "\n"] ++
    enclosed "table" (.words "\n" ::
      headParts ["Name", "Namespace", "Type", "Use", "Description"] ++
        attributes.flatMap rowParts) ++ [.words "\n"]

/-- The parts of the entry of a child. -/
def childParts (child : ChildRef) : List Part :=
  enclosed "li" [anchor (pageName child.id), .filled child.name, closing "a"] ++ [.words "\n"]

/-- The parts of the children of an element, if there are any. -/
def listParts (children : List ChildRef) : List Part :=
  if children = [] then []
  else enclosed "h2" [.words "Children"] ++ [.words "\n"] ++
    enclosed "ul" (.words "\n" :: children.flatMap childParts) ++ [.words "\n"]

/-- The parts of the namespace of an element. -/
def namespaceParts : Option String → List Part
  | some uri =>
    enclosed "p" (.words "Namespace: " :: enclosed "code" [.filled uri]) ++ [.words "\n"]
  | none => enclosed "p" [.words "Namespace: none"] ++ [.words "\n"]

/-- The parts of the description of an element, if there is one. -/
def descriptionParts (description : String) : List Part :=
  if description = "" then [] else enclosed "p" [.filled description] ++ [.words "\n"]

/-- The parts of the page of an element. -/
def elementParts (indexName : String) (record : ElementRecord) : List Part :=
  pageParts (.filled record.name)
    (enclosed "p" [anchor ("../" ++ indexName), .words "Index", closing "a"] ++ [.words "\n"] ++
      enclosed "h1" [.filled record.name] ++ [.words "\n"] ++ namespaceParts record.uri ++
      descriptionParts record.description ++ listParts record.children ++
      tableParts record.attributes ++ enclosed "h2" [.words "Diagram"] ++ [.words "\n"] ++
      enclosed "p" [anchor (diagramName record.id), .words "Content model (Graphviz)",
        closing "a"] ++ [.words "\n"])

variable (title : Part) (body : List Part)

@[simp] theorem links_pageParts :
    (pageParts title body).flatMap Part.links = title.links ++ body.flatMap Part.links := by
  simp [pageParts, Html.Tag.links]

@[simp] theorem strings_pageParts :
    (pageParts title body).flatMap Part.strings = title.strings ++ body.flatMap Part.strings := by
  simp [pageParts]

end Parts

section Spelling

theorem toList_escaped (text : String) : (escaped text).toList = escapedChars text :=
  String.toList_ofList

theorem escaped_append (one other : String) :
    escaped (one ++ other) = escaped one ++ escaped other := by
  rw [← String.toList_inj, String.toList_append, toList_escaped, toList_escaped, toList_escaped,
    Xml.escapedChars_append]

theorem escaped_toString (id : Nat) : escaped (toString id) = toString id := by
  rw [← String.toList_inj, toList_escaped]
  refine Xml.escapedChars_of_plain fun c member special => ?_
  have none : ∀ c ∈ Xml.special, c.isDigit = false := Xml.forall_mem_of_all (by decide)
  exact Text.not_mem_toString (none c special) id member

theorem escaped_pageName (id : Nat) : escaped (pageName id) = pageName id := by
  have ending : escaped ".html" = ".html" := rfl
  rw [pageName, escaped_append, escaped_toString, ending]

theorem escaped_diagramName (id : Nat) : escaped (diagramName id) = diagramName id := by
  have ending : escaped ".dot" = ".dot" := rfl
  rw [diagramName, escaped_append, escaped_toString, ending]

theorem spells_styleSheet : Spells styleSheet [.words styleSheet] := by
  refine .words ?_
  unfold styleSheet
  simp only [String.toList_append]
  exact Xml.forall_mem_of_all (by decide +kernel)

theorem spells_page {title : String} {heading : Part} {body : String} {inner : List Part}
    (titled : Spells (escaped title) [heading]) (inside : Spells body inner) :
    Spells (page title body) (pageParts heading inner) := by
  have front : Spells "<!DOCTYPE html>\n<html>\n<head>\n<meta charset=\"utf-8\">\n<title>"
      [.markup ⟨"!doctype".toList, [⟨"html".toList, []⟩]⟩, .words "\n", opening "html", .words "\n",
        opening "head", .words "\n", .markup ⟨"meta".toList, [⟨"charset".toList, "utf-8".toList⟩]⟩,
        .words "\n", opening "title"] := rfl
  have middle : Spells "</title>\n<style>\n"
      [closing "title", .words "\n", opening "style", .words "\n"] := rfl
  have behind : Spells "</style>\n</head>\n<body>\n"
      [closing "style", .words "\n", closing "head", .words "\n", opening "body",
        .words "\n"] := rfl
  have last : Spells "</body>\n</html>\n"
      [closing "body", .words "\n", closing "html", .words "\n"] := rfl
  have whole := (((((front.append titled).append middle).append spells_styleSheet).append
    behind).append inside).append last
  exact whole.of_eq (by simp [pageParts, enclosed])

theorem spells_namespaceNote (uri : Option String) :
    Spells (namespaceNote uri) (noteParts uri) := by
  cases uri with
  | none => exact .empty
  | some uri =>
    have opened : Spells " <small>(" [.words " ", opening "small", .words "("] := rfl
    have closed : Spells ")</small>" [.words ")", closing "small"] := rfl
    exact ((opened.append (.filled uri)).append closed).of_eq (by simp [noteParts, enclosed])

theorem spells_indexEntry (record : ElementRecord) :
    Spells (indexEntry record) (entryParts record) := by
  have item : Spells "<li>" [opening "li"] := rfl
  have anchored : Spells "</a>" [closing "a"] := rfl
  have last : Spells "</li>\n" [closing "li", .words "\n"] := rfl
  have same : indexEntry record =
      "<li>" ++ ("<a href=\"" ++ escaped ("elements/" ++ pageName record.id) ++ "\">") ++
        escaped record.name ++ "</a>" ++ namespaceNote record.uri ++ "</li>\n" := by
    have front : "<li><a href=\"elements/" = "<li>" ++ ("<a href=\"" ++ "elements/") := rfl
    have ending : ".html\">" = ".html" ++ "\">" := rfl
    have plain : escaped "elements/" = "elements/" := rfl
    rw [escaped_append, escaped_pageName, plain]
    unfold indexEntry pageName
    rw [front, ending]
    simp only [String.append_assoc]
  rw [same]
  have whole := ((((item.append (.anchor ("elements/" ++ pageName record.id))).append
    (.filled record.name)).append anchored).append (spells_namespaceNote record.uri)).append last
  exact whole.of_eq (by simp [entryParts, enclosed])

theorem spells_indexPage (documentation : Documentation) :
    Spells (indexPage documentation) (indexParts documentation) := by
  have front : Spells "<h1>Elements</h1>\n<ul>\n"
      [opening "h1", .words "Elements", closing "h1", .words "\n", opening "ul", .words "\n"] := rfl
  have last : Spells "</ul>\n" [closing "ul", .words "\n"] := rfl
  have entries : Spells (String.join (documentation.elements.map indexEntry)) _ :=
    .join fun record _ => spells_indexEntry record
  have titled : Spells (escaped "Elements") [.words "Elements"] := rfl
  exact (spells_page titled ((front.append entries).append last)).of_eq
    (by simp [indexParts, enclosed])

theorem spells_typeCell (type : AttributeType) : Spells (typeCell type) (typeParts type) := by
  cases type with
  | enumeration values =>
    have opened : Spells "<code>" [opening "code"] := rfl
    have closed : Spells "</code>" [closing "code"] := rfl
    exact .intercalate (rfl : Spells " | " [.words " | "]) fun value _ =>
      ((opened.append (.filled value.value)).append closed).of_eq (by simp [enclosed])
  | primitive datatype => exact .filled datatype.name
  | text => exact (rfl : Spells "text" [.words "text"])
  | unknown => exact (rfl : Spells "unknown" [.words "unknown"])

theorem spells_attributeRow (record : AttributeRecord) :
    Spells (attributeRow record) (rowParts record) := by
  have front : Spells "<tr><td>" [opening "tr", opening "td"] := rfl
  have next : Spells "</td><td>" [closing "td", opening "td"] := rfl
  have last : Spells "</td></tr>\n" [closing "td", closing "tr", .words "\n"] := rfl
  have use : Spells record.use.text [.words record.use.text] := by cases record.use <;> rfl
  have named := ((front.append (.filled record.name)).append next).append
    (.filled (record.uri.getD ""))
  have typed := ((named.append next).append (spells_typeCell record.type)).append next
  have whole := (((typed.append use).append next).append (.filled record.description)).append last
  exact whole.of_eq (by simp [rowParts, enclosed])

theorem spells_attributeTable (attributes : List AttributeRecord) :
    Spells (attributeTable attributes) (tableParts attributes) := by
  unfold attributeTable tableParts
  split
  · exact .empty
  · have front : Spells "<h2>Attributes</h2>\n<table>\n"
        [opening "h2", .words "Attributes", closing "h2", .words "\n", opening "table",
          .words "\n"] := rfl
    have head : Spells
        "<tr><th>Name</th><th>Namespace</th><th>Type</th><th>Use</th><th>Description</th></tr>\n"
        (headParts ["Name", "Namespace", "Type", "Use", "Description"]) := by
      rw [Spells]
      decide +kernel
    have last : Spells "</table>\n" [closing "table", .words "\n"] := rfl
    have rows : Spells (String.join (attributes.map attributeRow)) _ :=
      .join fun record _ => spells_attributeRow record
    exact (((front.append head).append rows).append last).of_eq (by simp [enclosed])

theorem spells_childEntry (child : ChildRef) : Spells (childEntry child) (childParts child) := by
  have item : Spells "<li>" [opening "li"] := rfl
  have last : Spells "</a></li>\n" [closing "a", closing "li", .words "\n"] := rfl
  have same : childEntry child = "<li>" ++ ("<a href=\"" ++ escaped (pageName child.id) ++ "\">") ++
      escaped child.name ++ "</a></li>\n" := by
    have front : "<li><a href=\"" = "<li>" ++ "<a href=\"" := rfl
    have ending : ".html\">" = ".html" ++ "\">" := rfl
    rw [escaped_pageName]
    unfold childEntry pageName
    rw [front, ending]
    simp only [String.append_assoc]
  rw [same]
  have anchored := item.append (.anchor (pageName child.id))
  have whole := (anchored.append (.filled child.name)).append last
  exact whole.of_eq (by simp [childParts, enclosed])

theorem spells_childList (children : List ChildRef) :
    Spells (childList children) (listParts children) := by
  unfold childList listParts
  split
  · exact .empty
  · have front : Spells "<h2>Children</h2>\n<ul>\n"
        [opening "h2", .words "Children", closing "h2", .words "\n", opening "ul",
          .words "\n"] := rfl
    have last : Spells "</ul>\n" [closing "ul", .words "\n"] := rfl
    have entries : Spells (String.join (children.map childEntry)) _ :=
      .join fun child _ => spells_childEntry child
    exact ((front.append entries).append last).of_eq (by simp [enclosed])

theorem spells_namespaceLine (uri : Option String) :
    Spells (namespaceLine uri) (namespaceParts uri) := by
  cases uri with
  | none => rfl
  | some uri =>
    have opened : Spells "<p>Namespace: <code>"
        [opening "p", .words "Namespace: ", opening "code"] := rfl
    have closed : Spells "</code></p>\n" [closing "code", closing "p", .words "\n"] := rfl
    exact ((opened.append (.filled uri)).append closed).of_eq (by simp [namespaceParts, enclosed])

theorem spells_descriptionLine (description : String) :
    Spells (descriptionLine description) (descriptionParts description) := by
  unfold descriptionLine descriptionParts
  split
  · exact .empty
  · have opened : Spells "<p>" [opening "p"] := rfl
    have closed : Spells "</p>\n" [closing "p", .words "\n"] := rfl
    exact ((opened.append (.filled description)).append closed).of_eq (by simp [enclosed])

theorem spells_elementPage (indexName : String) (record : ElementRecord) :
    Spells (elementPage indexName record) (elementParts indexName record) := by
  have paragraph : Spells "<p>" [opening "p"] := rfl
  have index : Spells "Index</a></p>\n<h1>"
      [.words "Index", closing "a", closing "p", .words "\n", opening "h1"] := rfl
  have closed : Spells "</h1>\n" [closing "h1", .words "\n"] := rfl
  have diagram : Spells "<h2>Diagram</h2>\n<p>"
      [opening "h2", .words "Diagram", closing "h2", .words "\n", opening "p"] := rfl
  have last : Spells "Content model (Graphviz)</a></p>\n"
      [.words "Content model (Graphviz)", closing "a", closing "p", .words "\n"] := rfl
  -- The page, taken apart around its links.
  have same : elementPage indexName record = page record.name
      ("<p>" ++ ("<a href=\"" ++ escaped ("../" ++ indexName) ++ "\">") ++
        "Index</a></p>\n<h1>" ++ escaped record.name ++ "</h1>\n" ++
        namespaceLine record.uri ++ descriptionLine record.description ++
        childList record.children ++ attributeTable record.attributes ++ "<h2>Diagram</h2>\n<p>" ++
        ("<a href=\"" ++ escaped (diagramName record.id) ++ "\">") ++
        "Content model (Graphviz)</a></p>\n") := by
    have front : "<p><a href=\"../" = "<p>" ++ ("<a href=\"" ++ "../") := rfl
    have dots : escaped "../" = "../" := rfl
    have between : "Index</a></p>\n<h1>" = "Index</a></p>\n" ++ "<h1>" := rfl
    have behind : "\">Index</a></p>\n" = "\">" ++ "Index</a></p>\n" := rfl
    have further :
      "<h2>Diagram</h2>\n<p><a href=\"" = "<h2>Diagram</h2>\n<p>" ++ "<a href=\"" := rfl
    have ending : ".dot\">Content model (Graphviz)</a></p>\n" =
      ".dot" ++ ("\">" ++ "Content model (Graphviz)</a></p>\n") := rfl
    rw [escaped_append, dots, escaped_diagramName]
    unfold elementPage diagramName
    rw [front, behind, further, ending, between]
    simp only [String.append_assoc]
  rw [same]
  have title := (((paragraph.append (.anchor ("../" ++ indexName))).append index).append
    (.filled record.name)).append closed
  have about := (title.append (spells_namespaceLine record.uri)).append
    (spells_descriptionLine record.description)
  have lists := (about.append (spells_childList record.children)).append
    (spells_attributeTable record.attributes)
  have whole := ((lists.append diagram).append (.anchor (diagramName record.id))).append last
  exact (spells_page (.filled record.name) whole).of_eq (by simp [elementParts, enclosed])

end Spelling

end RelaxDoc.Report
