import RelaxDoc.Proofs.Grammar.Retention
import RelaxDoc.Proofs.Grammar.Spans
import Mathlib.Logic.Relation

/-! Additions to a document that its grammar does not show: foreign and unknown elements, comments,
instructions and text. They can only take away the remark of a value that they come behind. -/
namespace RelaxDoc

/-- `wider` is `nodes` with one more node that is no element of a known kind, in no element that
holds text. -/
inductive Pads : (nodes wider : List Xml.Node) → Prop where
  | here {node : Xml.Node} (idle : Kind.ofNode? node = none) : Pads rest (node :: rest)
  | behind {node : Xml.Node} (pads : Pads rest wider) : Pads (node :: rest) (node :: wider)
  | within {tag : Xml.Tag} (plain : ∀ kind, Kind.ofName? tag.name = some kind → kind.holdsText = false)
      (pads : Pads children wider) : Pads (.element tag children :: rest) (.element tag wider :: rest)

/-- A node without its remark. -/
def Node.unremarked (node : Node) : Node := { node with remark := none }

namespace Particle

mutual

/-- A particle without remarks. -/
def unremarked : Particle → Particle
  | mk label children => mk { label with remarked := false } (unremarkedAll children)

/-- Particles without remarks. -/
def unremarkedAll : List Particle → List Particle
  | [] => []
  | particle :: rest => unremarked particle :: unremarkedAll rest

end

mutual

theorem size_unremarked (particle : Particle) : particle.unremarked.size = particle.size := by
  match particle with
  | mk label children => rw [unremarked, size, size, sizes_unremarkedAll]

theorem sizes_unremarkedAll (particles : List Particle) :
    sizes (unremarkedAll particles) = sizes particles := by
  match particles with
  | [] => rfl
  | particle :: rest => rw [unremarkedAll, sizes, sizes, size_unremarked, sizes_unremarkedAll]

end

theorem positions_unremarkedAll (first : Nat) (particles : List Particle) :
    positions first (unremarkedAll particles) = positions first particles := by
  induction particles generalizing first with
  | nil => rfl
  | cons particle rest ih => rw [unremarkedAll, positions, positions, size_unremarked, ih]

theorem unremarkedAll_append (left right : List Particle) :
    unremarkedAll (left ++ right) = unremarkedAll left ++ unremarkedAll right := by
  induction left with
  | nil => rfl
  | cons particle rest ih => rw [List.cons_append, unremarkedAll, unremarkedAll, ih, List.cons_append]

mutual

theorem nodes_unremarked (parent : Option Nat) (id : Nat) (particle : Particle) :
    nodes parent id particle.unremarked = (nodes parent id particle).map Node.unremarked := by
  match particle with
  | mk label children =>
    rw [unremarked, nodes, nodes, List.map_cons, nodesOfAll_unremarkedAll]
    congr 1
    simp [node, Node.unremarked, Particle.label, Particle.children, positions_unremarkedAll]

theorem nodesOfAll_unremarkedAll (parent first : Nat) (particles : List Particle) :
    nodesOfAll parent first (unremarkedAll particles) =
      (nodesOfAll parent first particles).map Node.unremarked := by
  match particles with
  | [] => rfl
  | particle :: rest =>
    rw [unremarkedAll, nodesOfAll, nodesOfAll, List.map_append, nodes_unremarked, size_unremarked,
      nodesOfAll_unremarkedAll]

end

/-- What comes behind a node decides about a remark alone. -/
theorem unremarked_ofNode? (outer : Xml.Scope) (following other : List Xml.Node) (node : Xml.Node) :
    unremarkedAll (ofNode? outer following node).toList =
      unremarkedAll (ofNode? outer other node).toList := by
  cases node with
  | element tag children =>
    rw [ofNode?, ofNode?]
    split
    · rfl
    · rfl
  | text | comment | instruction => rfl

theorem ofNode?_eq_none {outer : Xml.Scope} {following : List Xml.Node} {node : Xml.Node}
    (idle : Kind.ofNode? node = none) : ofNode? outer following node = none := by
  cases node with
  | element tag children =>
    rw [ofNode?, show Kind.ofName? tag.name = none from idle]
  | text | comment | instruction => rfl

theorem unremarked_ofNodes {nodes wider : List Xml.Node} (pads : Pads nodes wider)
    (outer : Xml.Scope) :
    unremarkedAll (ofNodes outer nodes) = unremarkedAll (ofNodes outer wider) := by
  induction pads generalizing outer with
  | here idle =>
    rw [ofNodes, ofNode?_eq_none idle]
    rfl
  | behind _ ih =>
    rw [ofNodes, ofNodes, unremarkedAll_append, unremarkedAll_append, ih]
    congr 1
    exact unremarked_ofNode? outer _ _ _
  | @within children wider rest tag plain _ ih =>
    rw [ofNodes, ofNodes, unremarkedAll_append, unremarkedAll_append, ofNode?, ofNode?]
    congr 1
    cases known : Kind.ofName? tag.name with
    | none => rfl
    | some kind =>
      have none := plain kind known
      simp [unremarkedAll, unremarked, Label.ofTag, keptText, none, ih]

end Particle

namespace Visit

/-- An element met that is kept. -/
def isKept : Visit → Bool
  | .kept _ => true
  | .skipped _ => false

theorem filter_ofNodes {nodes wider : List Xml.Node} (pads : Pads nodes wider) (depth : Nat) :
    (ofNodes depth nodes).filter isKept = (ofNodes depth wider).filter isKept := by
  induction pads generalizing depth with
  | @here rest node idle =>
    rw [ofNodes, List.filter_append]
    have none : (ofNode depth node).filter isKept = [] := by
      cases node with
      | element tag children =>
        rw [ofNode, show Kind.ofName? tag.name = none from idle]
        rfl
      | text | comment | instruction => rfl
    rw [none, List.nil_append]
  | behind _ ih => rw [ofNodes, ofNodes, List.filter_append, List.filter_append, ih]
  | @within children wider rest tag plain _ ih =>
    rw [ofNodes, ofNodes, List.filter_append, List.filter_append, ofNode, ofNode]
    congr 1
    cases known : Kind.ofName? tag.name with
    | none => rfl
    | some kind =>
      simp only [plain kind known, Bool.false_eq_true, if_false]
      rw [List.filter_cons_of_pos rfl, List.filter_cons_of_pos rfl, ih]

end Visit

/-- The limits apply to what is kept. -/
theorem Limits.checkVisits_filter (limits : Limits) (count : Nat) (visits : List Visit) :
    limits.checkVisits count (visits.filter Visit.isKept) = limits.checkVisits count visits := by
  induction visits generalizing count with
  | nil => rfl
  | cons visit rest ih =>
    cases visit with
    | kept depth =>
      rw [List.filter_cons_of_pos rfl, Limits.checkVisits, Limits.checkVisits]
      simp only [ih]
    | skipped name =>
      rw [List.filter_cons_of_neg Bool.false_ne_true, Limits.checkVisits, ih]

/-- One document is another with one addition to it. -/
def Xml.Document.Pads (document wider : Xml.Document) : Prop :=
  RelaxDoc.Pads [document.toNode] [wider.toNode]

/-- Two documents of which the same is kept, up to remarks. -/
structure Xml.Document.KeptAlike (one other : Xml.Document) : Prop where
  root : one.root = other.root
  particles : Particle.unremarkedAll (Particle.ofNodes [] [one.toNode]) =
    Particle.unremarkedAll (Particle.ofNodes [] [other.toNode])
  visits : (Visit.ofNodes 1 [one.toNode]).filter Visit.isKept =
    (Visit.ofNodes 1 [other.toNode]).filter Visit.isKept

namespace Xml.Document

variable {one other : Document}

theorem Pads.keptAlike (pads : one.Pads other) : one.KeptAlike other := by
  refine ⟨?_, Particle.unremarked_ofNodes pads [], Visit.filter_ofNodes pads 1⟩
  have pads : RelaxDoc.Pads [one.toNode] [other.toNode] := pads
  generalize first : [one.toNode] = nodes at pads
  generalize second : [other.toNode] = wider at pads
  cases pads with
  | here =>
    cases first
    cases second
  | behind pads =>
    obtain rfl := (List.cons.inj first).2
    obtain rfl := (List.cons.inj second).2
    cases pads
  | within =>
    have one := (List.cons.inj first).1
    have other := (List.cons.inj second).1
    exact (Xml.Node.element.inj one).1.trans (Xml.Node.element.inj other).1.symm

theorem KeptAlike.of_eqvGen (alike : Relation.EqvGen Document.Pads one other) :
    one.KeptAlike other := by
  induction alike with
  | rel _ _ pads => exact pads.keptAlike
  | refl => exact ⟨rfl, rfl, rfl⟩
  | symm _ _ _ ih => exact ⟨ih.root.symm, ih.particles.symm, ih.visits.symm⟩
  | trans _ _ _ _ _ left right =>
    exact ⟨left.root.trans right.root, left.particles.trans right.particles,
      left.visits.trans right.visits⟩

/-- The limits allow both documents or neither. -/
theorem KeptAlike.checkVisits_eq (alike : one.KeptAlike other) (limits : Limits) :
    limits.checkVisits 0 (Visit.ofNode 1 one.toNode) =
      limits.checkVisits 0 (Visit.ofNode 1 other.toNode) := by
  have single (node : Node) : Visit.ofNodes 1 [node] = Visit.ofNode 1 node := by
    rw [Visit.ofNodes, Visit.ofNodes, List.append_nil]
  have visits := alike.visits
  rw [single, single] at visits
  rw [← limits.checkVisits_filter, visits, limits.checkVisits_filter]

theorem KeptAlike.exists_particle (alike : one.KeptAlike other) {particle : Particle}
    (kept : Particle.ofNode? [] [] one.toNode = some particle) :
    ∃ same, Particle.ofNode? [] [] other.toNode = some same ∧
      same.unremarked = particle.unremarked := by
  have single (node : Node) :
      Particle.ofNodes [] [node] = (Particle.ofNode? [] [] node).toList := by
    rw [Particle.ofNodes, Particle.ofNodes, List.append_nil]
  have particles := alike.particles
  rw [single, single, kept] at particles
  cases found : Particle.ofNode? [] [] other.toNode with
  | none =>
    rw [found] at particles
    cases particles
  | some same =>
    rw [found] at particles
    exact ⟨same, rfl, (List.cons.inj particles).1.symm⟩

end Xml.Document

theorem Particle.unremarked_node (particle : Particle) (id : Nat) :
    (particle.arena.node id).unremarked = particle.unremarked.arena.node id := by
  change (nodeAt (nodes none 0 particle).toArray id).unremarked =
    nodeAt (nodes none 0 particle.unremarked).toArray id
  rw [nodeAt_eq, nodeAt_eq, nodes_unremarked, List.getElem?_map]
  cases (nodes none 0 particle)[id]? with
  | none => rfl
  | some node => rfl

/-- Additions, and taking them away again, leave the nodes as they are up to remarks. -/
theorem Grammar.exists_unremarked_eq {g : Grammar} {limits : Limits} {document other : Xml.Document}
    (read : ofDocument limits document = .ok g)
    (alike : Relation.EqvGen Xml.Document.Pads document other) :
    ∃ h, ofDocument limits other = .ok h ∧ h.size = g.size ∧
      ∀ id, (h.node id).unremarked = (g.node id).unremarked := by
  have alike := Xml.Document.KeptAlike.of_eqvGen alike
  obtain ⟨root, admitted, particle, kept, rfl⟩ := ofDocument_eq_ok_iff.1 read
  obtain ⟨same, found, equal⟩ := alike.exists_particle kept
  have sameRoot : checkRoot other = .ok () := by rw [checkRoot, ← alike.root]; exact root
  have within := (alike.checkVisits_eq limits).symm.trans admitted
  refine ⟨same.grammar, ofDocument_eq_ok_iff.2 ⟨sameRoot, within, same, found, rfl⟩, ?_, ?_⟩
  · have sizes : same.size = particle.size := by
      rw [← same.size_unremarked, equal, particle.size_unremarked]
    exact same.size_arena.trans (sizes.trans particle.size_arena.symm)
  · intro id
    exact (same.unremarked_node id).trans (equal ▸ (particle.unremarked_node id).symm)

end RelaxDoc
