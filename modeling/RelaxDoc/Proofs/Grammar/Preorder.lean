import RelaxDoc.Proofs.Grammar.Additions
import RelaxDoc.Proofs.Grammar.Remarks

/-! The nodes of a grammar are the kept elements of its document in preorder: the root first, every
node behind its parent, and what stands below a node right behind it. -/
namespace RelaxDoc.Grammar

open Xml (Address)

variable {g : Grammar}

/-- The nodes stand for the kept elements of a tree one by one, in document order. The element of
the node at a position has the address at that position. -/
structure Enumerates (g : Grammar) (root : Xml.Node) (addresses : List Address) : Prop where
  sorted : addresses.Pairwise (· < ·)
  mem_iff : ∀ address, address ∈ addresses ↔ Retained root address
  length_eq : addresses.length = g.size
  depicts : ∀ id address, addresses[id]? = some address → Depicts root address (g.node id)
  parent : ∀ id around step, addresses[id]? = some (around ++ [step]) →
    ∃ outer, g.parent? id = some outer ∧ addresses[outer]? = some around

/-- Every position that is noted somewhere in a grammar is that of a node. -/
structure InRange (g : Grammar) : Prop where
  parent : ∀ id outer, g.parent? id = some outer → outer < g.size
  child : ∀ id, ∀ child ∈ g.children id, child < g.size
  remark : ∀ id remark, (g.node id).remark = some remark → remark < g.size
  table : ∀ entry ∈ g.table.defines ++ g.table.references,
    (∀ scope, entry.1.scope = some scope → scope < g.size) ∧ ∀ id ∈ entry.2, id < g.size

/-- The nodes are what is kept of a document, in preorder. -/
structure IsPreorder (g : Grammar) (document : Xml.Document) : Prop where
  enumerates : ∃ addresses, g.Enumerates document.toNode addresses
  size_pos : 0 < g.size
  orphan_iff : ∀ id < g.size, g.parent? id = none ↔ id = 0
  parent_lt : ∀ id outer, g.parent? id = some outer → outer < id
  /-- A node is once among the children of its parent, and among those of no other node. -/
  count : ∀ id outer, (g.children outer).count id = if g.parent? id = some outer then 1 else 0
  increasing : ∀ id, (g.children id).Pairwise (· < ·)
  contiguous : ∀ id < g.size, ∃ stop, id < stop ∧ stop ≤ g.size ∧
    ∀ inner, id ∈ g.ancestors inner ↔ id < inner ∧ inner < stop
  inRange : g.InRange

theorem enumerates_keptAddresses {document : Xml.Document} {particle : Particle}
    (kept : Particle.ofNode? [] [] document.toNode = some particle) :
    particle.grammar.Enumerates document.toNode (keptAddresses document.toNode) := by
  have paired := forall₂_nodes [] [] none 0 document.toNode kept
  have length := paired.length_eq
  -- What stands at an address is paired with the node at the position of the address.
  have here {id : Nat} {address : Address}
      (found : (keptAddresses document.toNode)[id]? = some address) :
      Depicts document.toNode address (particle.grammar.node id) ∧
        Hangs 0 none 0 (keptAddresses document.toNode) address (particle.grammar.node id) := by
    obtain ⟨inside, same⟩ := List.getElem?_eq_some_iff.1 found
    have within : id < (Particle.nodes none 0 particle).length := length ▸ inside
    have stands : Particle.StandsAt 0 (Particle.nodes none 0 particle) id
        (Particle.nodes none 0 particle)[id] :=
      ⟨id, (Nat.zero_add id).symm, List.getElem?_eq_getElem within⟩
    have pair := paired.get inside within
    rw [List.get_eq_getElem, List.get_eq_getElem, same, ← stands.node_eq] at pair
    exact pair
  refine ⟨keptAddresses_sorted _, fun _ => mem_keptAddresses _, ?_, ?_, ?_⟩
  · rw [length]
    rfl
  · exact fun id address found => (here found).1
  · intro id around step found
    rcases (here found).2 with ⟨top, _⟩ | ⟨outer, other, offset, same, above, listed⟩
    · simp at top
    · rw [Nat.zero_add] at above
      rw [(List.append_inj' same rfl).1]
      exact ⟨offset, above, listed⟩

theorem lt_size_of_node {id : Nat} (particle : Particle) (filled : particle.arena.node id ≠ .blank) :
    id < particle.size ∧
      Particle.StandsAt 0 (Particle.nodes none 0 particle) id (particle.arena.node id) := by
  rcases particle.standsAt_node id with blank | stands
  · exact absurd blank filled
  · have bounds := stands.bounds
    rw [Particle.length_nodes, Nat.zero_add] at bounds
    exact ⟨bounds.2, stands⟩

theorem inRange_of_kept {document : Xml.Document} {particle : Particle}
    (kept : Particle.ofNode? [] [] document.toNode = some particle) :
    particle.grammar.InRange where
  parent id outer above := by
    have filled : particle.arena.node id ≠ .blank := by
      intro blank
      have none : particle.grammar.parent? id = .none := congrArg Node.parent blank
      rw [above] at none
      cases none
    have inside := (lt_size_of_node particle filled).1
    exact Nat.lt_trans (particle.grammar.parent?_lt above) (particle.size_arena ▸ inside)
  child id child member := particle.grammar.child_lt_size member
  remark id remark named := by
    have filled : particle.arena.node id ≠ .blank := by
      intro blank
      have none : (particle.grammar.node id).remark = .none := congrArg Node.remark blank
      rw [named] at none
      cases none
    obtain ⟨followed, last⟩ := Particle.followed_ofNode? [] [] document.toNode kept
    have stands := (lt_size_of_node particle filled).2
    rcases Particle.nodes_remark none 0 particle followed stands named with
      ⟨_, _, remarked⟩ | ⟨_, below, further, _, _⟩
    · -- Nothing comes behind the root.
      obtain ⟨_, next, behind, _⟩ := last remarked
      cases behind
    · have bounds := further.bounds
      rw [Particle.length_nodes, Nat.zero_add] at bounds
      exact particle.size_arena ▸ bounds.2
  table entry member := by
    rcases List.mem_append.1 member with define | reference
    · exact Arena.lt_size_of_keyed define
    · exact Arena.lt_size_of_keyed reference

/-- What is read from a document lists the kept elements in preorder. Additions to the document that
are no elements of known kinds, and taking such away, leave it readable and the nodes as they are,
up to the remarks of values. -/
theorem isPreorder_of_read {limits : Limits} {document : Xml.Document}
    (read : ofDocument limits document = .ok g) :
    g.IsPreorder document ∧
      ∀ other, Relation.EqvGen Xml.Document.Pads document other →
        ∃ h, ofDocument limits other = .ok h ∧ h.size = g.size ∧
          ∀ id, (h.node id).unremarked = (g.node id).unremarked := by
  have loaded : g.Loaded := ⟨limits, document, read⟩
  refine ⟨?_, fun other alike => exists_unremarked_eq read alike⟩
  obtain ⟨_, _, particle, kept, rfl⟩ := ofDocument_eq_ok_iff.1 read
  refine ⟨⟨_, enumerates_keptAddresses kept⟩, ?_, ?_, ?_, loaded.count_children, ?_, ?_,
    inRange_of_kept kept⟩
  · exact particle.size_arena ▸ particle.size_pos
  · exact fun id inside => loaded.parent?_eq_none_iff inside
  · exact fun id outer above => particle.grammar.parent?_lt above
  · exact particle.grammar.children_sorted
  · intro id inside
    obtain ⟨stop, spans⟩ := loaded.exists_spans inside
    exact ⟨stop, spans.lt, spans.le_size, fun inner => spans.mem_ancestors_iff loaded⟩

/-- A value with documentation behind it in an element, and a definition with a reference to it. -/
def remarkedContent : List Xml.Node :=
  [.pattern .start none [.pattern .element "e"
    [.pattern .value none [.text "on"],
     .element ⟨⟨some Namespace.compatibility, "documentation"⟩, [], []⟩ [.text "switched on"],
     .pattern .ref "d" []]],
   .pattern .define "d" [.pattern .empty none []]]

/-- The content in a grammar, behind an element of no namespace with a pattern in it. -/
def remarkedDocument : Xml.Document :=
  .ofContent (.element ⟨⟨none, "note"⟩, [], []⟩ [.pattern .text none []] :: remarkedContent)

theorem remarked_isPreorder :
    ∃ g h, ofDocument .standard remarkedDocument = .ok g ∧ g.IsPreorder remarkedDocument ∧
      ofDocument .standard (.ofContent remarkedContent) = .ok h ∧ h.size = g.size ∧
      ∀ id, (h.node id).unremarked = (g.node id).unremarked := by
  have read : ofDocument .standard remarkedDocument = .ok (ofKept remarkedDocument rfl) :=
    ofDocument_eq_ok_iff.2 ⟨rfl, rfl, _, rfl, rfl⟩
  have pads : Xml.Document.Pads (.ofContent remarkedContent) remarkedDocument :=
    .within (fun kind known => by cases known; rfl) (.here rfl)
  obtain ⟨preorder, additions⟩ := isPreorder_of_read read
  obtain ⟨h, found, size, same⟩ := additions _ (.symm _ _ (.rel _ _ pads))
  exact ⟨_, h, read, preorder, found, size, same⟩

end RelaxDoc.Grammar
