import RelaxDoc.Grammar.Path
import RelaxDoc.Log
import RelaxDoc.Record.Index
import RelaxDoc.Record.Type
import RelaxDoc.Search.Climb

/-! The records of a grammar, and the messages that making them leaves. -/
namespace RelaxDoc

/-- The message about a reference to nothing. -/
def unresolvedMessage (name : String) : Message :=
  ⟨.trace, s!"Unresolved reference to '{name}'"⟩

/-- The messages about the references to nothing among findings. -/
def findingMessages (findings : List Finding) : List Message :=
  (findings.filterMap Finding.unresolved?).map unresolvedMessage

namespace Grammar

/-- The message of a search upwards, if it finds something. -/
def climbMessages (g : Grammar) (id : Nat) (wrapper stop : Kind) : List Message :=
  if g.climb id wrapper stop then [⟨.trace, s!"Found {wrapper.tag} above {g.path id}"⟩] else []

/-- The messages of following a reference. -/
def derefMessages (g : Grammar) (id : Nat) : List Message :=
  match g.defineKey? id with
  | some key => if (g.definesOf key).isEmpty then [unresolvedMessage key.name] else []
  | none => []

/-- The use of an attribute: optional if it stands below an `optional` pattern. -/
def useOf (g : Grammar) (id : Nat) : Use :=
  if g.climb id .optional .element then .optional else .required

/-- The record of an attribute pattern. -/
def attributeRecord (g : Grammar) (id : Nat) : AttributeRecord where
  name := g.attributeName id
  uri := g.namespaceOf? id
  description := g.description id
  use := g.useOf id
  type := g.attributeType id

/-- The messages of making the record of an attribute. -/
def attributeMessages (g : Grammar) (id : Nat) : List Message :=
  g.climbMessages id .optional .element ++ findingMessages (g.typeFindings id)

/-- The references to the children of an element that have an id. -/
def childRefs (g : Grammar) (index : ElementIndex) (id : Nat) : List ChildRef :=
  (g.descend id .element).filterMap fun child =>
    (index.idOf? child).map fun number => ⟨number, g.elementName child⟩

/-- The record of an element pattern. -/
def elementRecord (g : Grammar) (index : ElementIndex) (id : Nat) : ElementRecord where
  id := (index.idOf? id).getD 0
  name := g.elementName id
  uri := g.namespaceOf? id
  description := g.description id
  children := g.childRefs index id
  attributes := (g.descend id .attr).map g.attributeRecord

/-- The messages of making the record of an element. -/
def elementMessages (g : Grammar) (id : Nat) : List Message :=
  findingMessages (g.findings id .element) ++ findingMessages (g.findings id .attr) ++
    (g.descend id .attr).flatMap g.attributeMessages

/-- The index of the element patterns. -/
def elementIndex (g : Grammar) : ElementIndex := .ofArena g.toArena

end Grammar

namespace Documentation

/-- The records of all element patterns of a grammar, in document order. -/
def ofGrammar (g : Grammar) : Documentation :=
  ⟨g.elementIndex.nodes.map (g.elementRecord g.elementIndex)⟩

/-- The message about a finished record. -/
def recordMessage (record : ElementRecord) : Message :=
  let children := record.children.length
  let attributes := record.attributes.length
  ⟨.debug, s!"Element {record.id} '{record.name}': {children} children, {attributes} attributes"⟩

/-- The messages of making the records of a grammar. -/
def messages (g : Grammar) : List Message :=
  let count := g.elementIndex.size
  ⟨.info, s!"Documenting {count} elements"⟩ ::
    g.elementIndex.nodes.flatMap fun node =>
      g.elementMessages node ++ [recordMessage (g.elementRecord g.elementIndex node)]

/-- The records of a grammar with the messages of making them. -/
def traced (g : Grammar) : Traced Documentation := ⟨messages g, ofGrammar g⟩

end Documentation

end RelaxDoc
