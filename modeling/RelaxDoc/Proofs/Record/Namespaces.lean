import RelaxDoc.Proofs.Grammar.Precedence
import RelaxDoc.Proofs.Record.Numbering

/-! Empty namespaces. An empty `ns` is taken for no namespace. A qualifier that is declared to stand
for the empty URI gives its patterns the empty namespace, and so to their records. -/
namespace RelaxDoc

open Xml (Address)

/-- The namespaces in the records of elements and of their attributes. -/
def Documentation.namespaces (documentation : Documentation) : List (Option String) :=
  documentation.elements.flatMap fun record =>
    record.uri :: record.attributes.map AttributeRecord.uri

namespace Grammar

variable {g : Grammar} {root : Xml.Node} {addresses : List Address} {id : Nat}

/-- The patterns that are documented: the elements, and the attributes that are found in them. -/
def documentedPatterns (g : Grammar) : List Nat :=
  g.elementIndex.nodes.flatMap fun element => element :: g.descend element .attr

/-- The qualifier of a name stands for the empty URI where the name is written. -/
def QualifiedByEmpty (g : Grammar) (root : Xml.Node) (addresses : List Address) (id : Nat) :
    Prop :=
  ∃ holder name qualifier address, g.Writes id holder name ∧
    (Name.split name).1 = some qualifier ∧ qualifier ≠ "xml" ∧
    addresses[holder]? = some address ∧ root.Binds address qualifier ""

/-- Only what a qualifier stands for is taken as it is. -/
theorem namespace_eq_empty_iff {level : NsLevel} {uri : String} :
    level.namespace uri = some "" ↔ level = .qualifier ∧ uri = "" := by
  cases level with
  | qualifier => simp [NsLevel.namespace]
  | singleName | own | around => by_cases empty : uri = "" <;> simp [NsLevel.namespace, empty]

theorem saysAt_qualifier_empty_iff :
    g.SaysAt root addresses id .qualifier "" ↔ g.QualifiedByEmpty root addresses id := by
  constructor
  · generalize same : "" = uri
    intro said
    cases said with
    | xml => exact absurd same (by decide)
    | bound writes qualified other there binds =>
      exact ⟨_, _, _, _, writes, qualified, other, there, same ▸ binds⟩
  · intro ⟨_, _, _, _, writes, qualified, other, there, binds⟩
    exact .bound writes qualified other there binds

/-- A qualifier alone can give the empty namespace, and nothing is nearer than it. -/
theorem hasNamespace_empty_iff :
    g.HasNamespace root addresses id (some "") ↔ g.QualifiedByEmpty root addresses id := by
  rw [← saysAt_qualifier_empty_iff]
  constructor
  · generalize same : some "" = ns
    intro has
    cases has with
    | undecided => cases same
    | decided among said nearest =>
      obtain ⟨rfl, rfl⟩ := namespace_eq_empty_iff.1 same.symm
      exact said
  · intro said
    exact .decided (by simp [nsLevels]) said (by simp [nearerLevels, nsLevels])

theorem namespaces_ofGrammar (g : Grammar) :
    (Documentation.ofGrammar g).namespaces = g.documentedPatterns.map g.namespaceOf? := by
  unfold Documentation.namespaces Documentation.ofGrammar documentedPatterns
  rw [List.flatMap_map, List.map_flatMap]
  simp [elementRecord, attributeRecord, Function.comp_def]

theorem pattern_of_documented (member : id ∈ g.documentedPatterns) :
    g.kind id = .element ∨ g.kind id = .attr := by
  obtain ⟨element, among, within⟩ := List.mem_flatMap.1 member
  rcases List.mem_cons.1 within with rfl | found
  · exact .inl ((g.mem_ofKind (by decide)).1 among)
  · exact .inr (mem_descend_iff.1 found).1

variable {limits : Limits} {document : Xml.Document}

/-- A pattern has the empty namespace exactly if its name has a qualifier that stands for the empty
URI. If no such declaration is written in the document, no record has it. -/
theorem empty_namespace_iff (once : document.toNode.DeclaresOnce)
    (read : ofDocument limits document = .ok g) :
    ∃ addresses, g.Enumerates document.toNode addresses ∧
      (∀ id, g.kind id = .element ∨ g.kind id = .attr →
        (g.namespaceOf? id = some "" ↔ g.QualifiedByEmpty document.toNode addresses id)) ∧
      (some "" ∈ (Documentation.ofGrammar g).namespaces ↔
        ∃ id ∈ g.documentedPatterns, g.QualifiedByEmpty document.toNode addresses id) ∧
      ((∀ address qualifier, ¬ document.toNode.DeclaresAt address qualifier "") →
        some "" ∉ (Documentation.ofGrammar g).namespaces) := by
  have empty {id : Nat} (pattern : g.kind id = .element ∨ g.kind id = .attr) :
      g.namespaceOf? id = some "" ↔
        g.QualifiedByEmpty document.toNode (keptAddresses document.toNode) id := by
    rw [← hasNamespace_empty_iff]
    exact (hasNamespace_iff_of_read once read pattern).symm
  have recorded : some "" ∈ (Documentation.ofGrammar g).namespaces ↔
      ∃ id ∈ g.documentedPatterns,
        g.QualifiedByEmpty document.toNode (keptAddresses document.toNode) id := by
    rw [namespaces_ofGrammar, List.mem_map]
    exact exists_congr fun id =>
      and_congr_right fun member => empty (pattern_of_documented member)
  refine ⟨_, enumerates_of_read read, fun id => empty, recorded, fun undeclared member => ?_⟩
  obtain ⟨id, _, _, _, qualifier, _, _, _, _, _, outer, _, declares, _⟩ := recorded.1 member
  exact undeclared outer qualifier declares

/-- A schema with a qualifier that is declared to stand for the empty URI. -/
def emptiedText : String :=
  "<element name=\"p:e\" xmlns=\"http://relaxng.org/ns/structure/1.0\" xmlns:p=\"\"><text/></element>"

theorem emptied_facts : ((Xml.Document.ofText emptiedText).toOption.bind fun document =>
    (ofDocument .standard document).toOption.map fun g => decide (
      g.kind 0 = .element ∧ g.namespaceOf? 0 = some "")) = some true := by decide +kernel

theorem emptied_qualified : ∃ document g addresses,
    Xml.Document.ofText emptiedText = .ok document ∧ ofDocument .standard document = .ok g ∧
      g.QualifiedByEmpty document.toNode addresses 0 := by
  obtain ⟨document, g, written, read, element, empty⟩ := exists_read emptied_facts
  have once := Xml.Document.declaresOnce_of_ofText written
  obtain ⟨addresses, _, qualified, _⟩ := empty_namespace_iff once read
  exact ⟨document, g, addresses, written, read, (qualified 0 (.inl element)).1 empty⟩

/-- An element may have the empty namespace. -/
theorem exists_empty_namespace : ¬ ∀ (text : String) (document : Xml.Document) (limits : Limits)
    (g : Grammar), Xml.Document.ofText text = .ok document → ofDocument limits document = .ok g →
      ∀ id, g.kind id = .element ∨ g.kind id = .attr → g.namespaceOf? id ≠ some "" := by
  intro never
  obtain ⟨document, g, written, read, element, empty⟩ := exists_read emptied_facts
  exact never _ _ _ _ written read 0 (.inl element) empty

end Grammar

end RelaxDoc
