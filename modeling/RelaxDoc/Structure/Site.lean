import RelaxDoc.Grammar.Path
import RelaxDoc.Xml.Tree

/-! The elements of a document with the places they stand at. -/
namespace RelaxDoc

/-- An element of a document: its tag and content, the name of the element around it,
and the steps that lead to it from the root. -/
structure Site where
  tag : Xml.Tag
  children : List Xml.Node
  parent : Option Xml.Name
  steps : List PathStep

namespace Site

/-- The location path of an element. -/
def path (site : Site) : String := pathText site.steps

/-- The names of the elements in a list of nodes. -/
def elementNames (nodes : List Xml.Node) : List Xml.Name :=
  nodes.filterMap fun node => node.tag?.map Xml.Tag.name

/-- The step to an element with the given names before it and on all its level. -/
def stepTo (name : Xml.Name) (before level : List Xml.Name) : PathStep :=
  .among name.localName (before.count name) (level.count name)

mutual

/-- The elements in a node that the last of `steps` leads to, in document order. -/
def ofNode (parent : Option Xml.Name) (steps : List PathStep) : Xml.Node → List Site
  | .element tag children =>
    ⟨tag, children, parent, steps⟩ ::
      ofNodes (some tag.name) steps (elementNames children) [] children
  | .text _ => []
  | .comment _ => []
  | .instruction _ _ => []

/-- The elements in nodes on a level with the given names, of which those in `before` come
in front of the nodes. -/
def ofNodes (parent : Option Xml.Name) (steps : List PathStep) (level before : List Xml.Name) :
    List Xml.Node → List Site
  | [] => []
  | node :: rest =>
    (match node.tag? with
      | some tag => ofNode parent (steps ++ [stepTo tag.name before level]) node
      | none => []) ++
    ofNodes parent steps level (before ++ elementNames [node]) rest

end

/-- All elements of a document, the root first. -/
def all (document : Xml.Document) : List Site :=
  ofNode none [⟨document.root.name.localName, none⟩] document.toNode

end Site

end RelaxDoc
