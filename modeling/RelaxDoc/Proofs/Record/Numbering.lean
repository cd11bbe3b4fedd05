import RelaxDoc.Proofs.Search.Expansion
import RelaxDoc.Record.Build
import Mathlib.Data.List.Basic

/-! The numbering of element patterns, and what it gives the documentation: the id of a record is
its position, and each child that a search finds has a record under the id that refers to it. -/
namespace RelaxDoc

namespace ElementIndex

variable {a : Arena} {node id : Nat}

theorem exists_nodeOf?_iff_lt : (∃ node, (ofArena a).nodeOf? id = some node) ↔
    id < (ofArena a).size := by
  constructor
  · intro ⟨node, found⟩
    exact (List.getElem?_eq_some_iff.1 found).1
  · intro room
    exact ⟨_, List.getElem?_eq_getElem room⟩

/-- The numbered nodes are the elements. -/
theorem exists_nodeOf?_iff_element :
    (∃ id, (ofArena a).nodeOf? id = some node) ↔ a.kind node = .element := by
  rw [← a.mem_ofKind (by decide), List.mem_iff_getElem?]
  rfl

/-- Ids grow with the positions of the nodes they stand for. -/
theorem nodeOf?_increases {other further : Nat} (found : (ofArena a).nodeOf? id = some node)
    (later : (ofArena a).nodeOf? other = some further) (less : id < other) : node < further := by
  obtain ⟨_, rfl⟩ := List.getElem?_eq_some_iff.1 found
  obtain ⟨_, rfl⟩ := List.getElem?_eq_some_iff.1 later
  exact List.pairwise_iff_getElem.1 (a.ofKind_sorted .element) id other _ _ less

theorem nodeOf?_injective {other : Nat} (found : (ofArena a).nodeOf? id = some node)
    (again : (ofArena a).nodeOf? other = some node) : id = other := by
  rcases Nat.lt_trichotomy id other with less | same | more
  · exact absurd (nodeOf?_increases found again less) (Nat.lt_irrefl _)
  · exact same
  · exact absurd (nodeOf?_increases again found more) (Nat.lt_irrefl _)

theorem lt_iff_nodeOf?_lt {other further : Nat} (found : (ofArena a).nodeOf? id = some node)
    (later : (ofArena a).nodeOf? other = some further) : id < other ↔ node < further := by
  refine ⟨nodeOf?_increases found later, fun less => Nat.lt_of_not_le fun beyond => ?_⟩
  rcases Nat.lt_or_eq_of_le beyond with more | rfl
  · exact Nat.lt_asymm less (nodeOf?_increases later found more)
  · rw [found] at later
    exact Nat.ne_of_lt less (Option.some.inj later)

/-- The two ways to look up undo each other. -/
theorem idOf?_eq_some_iff :
    (ofArena a).idOf? node = some id ↔ (ofArena a).nodeOf? id = some node := by
  rw [idOf?, List.idxOf?_eq_some_iff]
  constructor
  · intro ⟨room, same, _⟩
    exact List.getElem?_eq_some_iff.2 ⟨room, same⟩
  · intro found
    obtain ⟨room, same⟩ := List.getElem?_eq_some_iff.1 found
    refine ⟨room, same, fun earlier less again => ?_⟩
    have before := List.getElem?_eq_some_iff.2 ⟨Nat.lt_trans less room, again⟩
    exact Nat.ne_of_lt less (nodeOf?_injective before found)

theorem exists_idOf? (element : a.kind node = .element) :
    ∃ id, (ofArena a).idOf? node = some id := by
  obtain ⟨id, found⟩ := exists_nodeOf?_iff_element.2 element
  exact ⟨id, idOf?_eq_some_iff.2 found⟩

end ElementIndex

namespace Grammar

variable {g : Grammar} {node id : Nat}

/-- A record has the id of the element that it is about. -/
theorem elementRecord_id (found : g.elementIndex.nodeOf? id = some node) :
    (g.elementRecord g.elementIndex node).id = id := by
  have numbered : g.elementIndex.idOf? node = some id := ElementIndex.idOf?_eq_some_iff.2 found
  rw [elementRecord, numbered, Option.getD_some]

/-- Every element that a search finds has an id, so references to children leave none out. -/
theorem childRefs_nodes (g : Grammar) (node : Nat) :
    (g.childRefs g.elementIndex node).map (fun child => g.elementIndex.nodeOf? child.id) =
      (g.descend node .element).map some := by
  rw [childRefs, List.map_filterMap, List.filterMap_eq_map_iff_forall_eq_some]
  intro child member
  obtain ⟨id, numbered⟩ := ElementIndex.exists_idOf? (mem_descend_iff.1 member).1
  have found := ElementIndex.idOf?_eq_some_iff.1 numbered
  rw [show g.elementIndex.idOf? child = some id from numbered]
  exact congrArg some found

/-- The references to children name the elements that the search finds, one by one. -/
theorem childRefs_names (g : Grammar) (node : Nat) :
    (g.childRefs g.elementIndex node).map ChildRef.name =
      (g.descend node .element).map g.elementName := by
  rw [childRefs, List.map_filterMap, ← List.filterMap_eq_map]
  apply List.filterMap_congr
  intro child member
  obtain ⟨id, numbered⟩ := ElementIndex.exists_idOf? (mem_descend_iff.1 member).1
  rw [show g.elementIndex.idOf? child = some id from numbered]
  rfl

/-- A reference to a child names the element that its id stands for. -/
theorem childRefs_name {child : ChildRef} (member : child ∈ g.childRefs g.elementIndex node) :
    ∃ inner, g.elementIndex.nodeOf? child.id = some inner ∧ child.name = g.elementName inner := by
  obtain ⟨inner, _, referred⟩ := List.mem_filterMap.1 member
  obtain ⟨id, numbered, same⟩ := Option.map_eq_some_iff.1 referred
  refine ⟨inner, ?_, by rw [← same]⟩
  rw [← same]
  exact ElementIndex.idOf?_eq_some_iff.1 numbered

end Grammar

namespace Documentation

variable {g : Grammar} {id : Nat}

theorem getElem?_ofGrammar (g : Grammar) (id : Nat) : (ofGrammar g).elements[id]? =
    (g.elementIndex.nodeOf? id).map (g.elementRecord g.elementIndex) := List.getElem?_map

theorem size_ofGrammar (g : Grammar) : (ofGrammar g).size = g.elementIndex.size :=
  List.length_map ..

/-- Documentation that is whole: its records are those of the elements of a grammar in document
order, with their positions for ids, and no reference to a child is missing or leads astray. -/
structure WholeFor (documentation : Documentation) (g : Grammar) : Prop where
  /-- There are as many records as elements. -/
  size_eq : documentation.size = (g.ofKind .element).length
  /-- The elements are what the ids below the size stand for. -/
  element_iff : ∀ node, g.kind node = .element ↔
    ∃ id < documentation.size, g.elementIndex.nodeOf? id = some node
  node_iff : ∀ id, id < documentation.size ↔ ∃ node, g.elementIndex.nodeOf? id = some node
  /-- The two ways to look up undo each other. -/
  inverse : ∀ node id, g.elementIndex.idOf? node = some id ↔ g.elementIndex.nodeOf? id = some node
  /-- Ids are in document order. -/
  increasing : ∀ id other node further, g.elementIndex.nodeOf? id = some node →
    g.elementIndex.nodeOf? other = some further → (id < other ↔ node < further)
  /-- The record at a position has the position for its id and is about the element with it. -/
  record : ∀ id node, g.elementIndex.nodeOf? id = some node → ∃ record,
    documentation.elements[id]? = some record ∧ record.id = id ∧
      record = g.elementRecord g.elementIndex node
  /-- A reference to a child leads to a record of the name it gives. -/
  child : ∀ record ∈ documentation.elements, ∀ child ∈ record.children,
    child.id < documentation.size ∧ ∃ inner,
      documentation.elements[child.id]? = some inner ∧ inner.name = child.name
  /-- The references to children are to the elements that the search finds, one by one. -/
  children : ∀ node, (g.elementRecord g.elementIndex node).children.map
    (fun child => g.elementIndex.nodeOf? child.id) = (g.descend node .element).map some

theorem child_of_mem {record : ElementRecord} (documented : record ∈ (ofGrammar g).elements)
    {child : ChildRef} (member : child ∈ record.children) : child.id < (ofGrammar g).size ∧
      ∃ inner, (ofGrammar g).elements[child.id]? = some inner ∧ inner.name = child.name := by
  obtain ⟨node, _, rfl⟩ := List.mem_map.1 documented
  obtain ⟨inner, found, named⟩ := Grammar.childRefs_name member
  refine ⟨?_, g.elementRecord g.elementIndex inner, ?_, named.symm⟩
  · rw [size_ofGrammar]
    exact ElementIndex.exists_nodeOf?_iff_lt.1 ⟨inner, found⟩
  · rw [getElem?_ofGrammar, found]
    rfl

/-- The documentation of a grammar is whole. -/
theorem wholeFor_ofGrammar (g : Grammar) : (ofGrammar g).WholeFor g where
  size_eq := size_ofGrammar g
  element_iff node := by
    rw [size_ofGrammar]
    constructor
    · intro element
      obtain ⟨id, found⟩ := ElementIndex.exists_nodeOf?_iff_element.2 element
      exact ⟨id, ElementIndex.exists_nodeOf?_iff_lt.1 ⟨node, found⟩, found⟩
    · intro ⟨id, _, found⟩
      exact ElementIndex.exists_nodeOf?_iff_element.1 ⟨id, found⟩
  node_iff id := by
    rw [size_ofGrammar]
    exact ElementIndex.exists_nodeOf?_iff_lt.symm
  inverse node id := ElementIndex.idOf?_eq_some_iff
  increasing id other node further found later := ElementIndex.lt_iff_nodeOf?_lt found later
  record id node found := by
    refine ⟨_, ?_, Grammar.elementRecord_id found, rfl⟩
    rw [getElem?_ofGrammar, found]
    rfl
  child _ documented _ member := child_of_mem documented member
  children node := g.childRefs_nodes node

end Documentation

end RelaxDoc
