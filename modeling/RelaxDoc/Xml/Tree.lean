/-! XML documents as trees of elements with expanded names. -/
namespace RelaxDoc.Xml

/-- An expanded name: a local name with the URI of its namespace, if it is in one. -/
structure Name where
  uri : Option String
  localName : String
  deriving DecidableEq, Repr

/-- An attribute that declares no namespace. -/
structure Attribute where
  name : Name
  value : String
  deriving DecidableEq, Repr

/-- A namespace declaration of an element; without a qualifier, of the default namespace. -/
structure Declaration where
  qualifier : Option String
  uri : String
  deriving DecidableEq, Repr

/-- What a start tag says: declarations and attributes in document order. -/
structure Tag where
  name : Name
  attributes : List Attribute
  declarations : List Declaration
  deriving DecidableEq, Repr

/-- The value of an attribute in no namespace. -/
def Tag.attribute? (tag : Tag) (name : String) : Option String :=
  (tag.attributes.find? fun a => a.name = ⟨none, name⟩).map Attribute.value

/-- A node of a document. -/
inductive Node where
  | element (tag : Tag) (children : List Node)
  | text (content : String)
  | comment (content : String)
  | instruction (target content : String)
  deriving Repr

/-- A document by its root element; what stands around the root is not kept. -/
structure Document where
  root : Tag
  children : List Node
  deriving Repr

/-- The root element as a node. -/
def Document.toNode (document : Document) : Node := .element document.root document.children

/-- The tag of an element, nothing for other nodes. -/
def Node.tag? : Node → Option Tag
  | .element tag _ => some tag
  | _ => none

/-- The tag of the first element in a list of nodes. -/
def firstTag? (nodes : List Node) : Option Tag := nodes.findSome? Node.tag?

/-- The text directly in a list of nodes. -/
def directText : List Node → String
  | [] => ""
  | .text content :: rest => content ++ directText rest
  | _ :: rest => directText rest

mutual

/-- All text in a node. -/
def Node.fullText : Node → String
  | .text content => content
  | .element _ children => fullTexts children
  | .comment _ => ""
  | .instruction _ _ => ""

/-- All text in a list of nodes. -/
def fullTexts : List Node → String
  | [] => ""
  | node :: rest => node.fullText ++ fullTexts rest

end

/-- The declarations in force at an element, the nearest first. -/
abbrev Scope := List Declaration

/-- The URI bound to a qualifier, or to no qualifier. -/
def Scope.lookup (scope : Scope) (qualifier : Option String) : Option String :=
  (scope.find? fun d => d.qualifier = qualifier).map Declaration.uri

/-- The scope inside an element with these declarations. -/
def Scope.enter (scope : Scope) (declarations : List Declaration) : Scope :=
  declarations ++ scope

end RelaxDoc.Xml
