import RelaxDoc.Proofs.Grammar.Addresses
import RelaxDoc.Proofs.Grammar.Admission

/-! What the limits decide. Reading a document fails at the first kept element that stands too deep
or is one too many. Whatever limits let a document pass, its grammar is the same, and what is
dropped counts for nothing. -/
namespace RelaxDoc

open Xml (Address)

namespace Limits

/-- An element at a depth crosses a limit when `before` elements are kept in front of it. -/
def Crosses (limits : Limits) (before depth : Nat) : Prop :=
  limits.maxDepth < depth ∨ limits.maxNodes < before + 1

instance (limits : Limits) (before depth : Nat) : Decidable (limits.Crosses before depth) :=
  inferInstanceAs (Decidable (limits.maxDepth < depth ∨ limits.maxNodes < before + 1))

/-- What an element that crosses a limit exceeds. Its depth is told first. -/
def excess (limits : Limits) (before depth : Nat) : Excess :=
  if limits.maxDepth < depth then .depth depth limits.maxDepth
  else .nodes (before + 1) limits.maxNodes

/-- The first of elements at some depths that crosses a limit, when `count` are kept already. -/
structure CrossesFirst (limits : Limits) (count : Nat) (depths : List Nat) (index depth : Nat) :
    Prop where
  found : depths[index]? = some depth
  crosses : limits.Crosses (count + index) depth
  earlier : ∀ before < index, ∀ other, depths[before]? = some other →
    ¬ limits.Crosses (count + before) other

variable {limits : Limits} {count depth index other : Nat} {depths : List Nat}

theorem crossesFirst_zero_iff :
    limits.CrossesFirst count (depth :: depths) 0 other ↔
      other = depth ∧ limits.Crosses count depth := by
  constructor
  · intro first
    cases first.found
    exact ⟨rfl, first.crosses⟩
  · rintro ⟨rfl, crosses⟩
    exact ⟨rfl, crosses, nofun⟩

theorem crossesFirst_succ_iff :
    limits.CrossesFirst count (depth :: depths) (index + 1) other ↔
      ¬ limits.Crosses count depth ∧ limits.CrossesFirst (count + 1) depths index other := by
  have shift (offset : Nat) : count + 1 + offset = count + (offset + 1) := by omega
  constructor
  · intro first
    refine ⟨first.earlier 0 (Nat.succ_pos _) depth rfl, first.found, ?_, fun before less => ?_⟩
    · rw [shift]
      exact first.crosses
    · rw [shift]
      exact first.earlier (before + 1) (Nat.succ_lt_succ less)
  · rintro ⟨within, first⟩
    refine ⟨first.found, shift index ▸ first.crosses, fun before less further found => ?_⟩
    cases before with
    | zero =>
      cases found
      exact within
    | succ before =>
      rw [← shift]
      exact first.earlier before (Nat.lt_of_succ_lt_succ less) further found

/-- What is done about one element that is kept. -/
theorem checkVisits_kept (rest : List Visit) :
    (limits.Crosses count depth → limits.checkVisits count (.kept depth :: rest) =
      .error (.limitExceeded (limits.excess count depth))) ∧
    (¬ limits.Crosses count depth →
      limits.checkVisits count (.kept depth :: rest) = limits.checkVisits (count + 1) rest) := by
  rw [Limits.checkVisits, checkDepth, checkNodes, Crosses, excess]
  by_cases deep : limits.maxDepth < depth
  · rw [if_pos deep, if_pos deep]
    simp [deep, bind, Except.bind]
  · by_cases many : limits.maxNodes < count + 1
    · rw [if_neg deep, if_pos many, if_neg deep]
      simp [many, bind, Except.bind]
    · rw [if_neg deep, if_neg many]
      simp [deep, many, bind, Except.bind]

/-- The elements met are refused for the first of those kept that crosses a limit. -/
theorem checkVisits_eq_error_iff {visits : List Visit} {e : Error} :
    limits.checkVisits count visits = .error e ↔ ∃ index depth,
      limits.CrossesFirst count (visits.filterMap Visit.depth?) index depth ∧
        e = .limitExceeded (limits.excess (count + index) depth) := by
  induction visits generalizing count with
  | nil =>
    rw [Limits.checkVisits]
    constructor
    · intro same
      cases same
    · rintro ⟨index, depth, first, -⟩
      cases first.found
  | cons visit rest ih =>
    cases visit with
    | skipped name => exact ih
    | kept depth =>
      have depths : (Visit.kept depth :: rest).filterMap Visit.depth? =
          depth :: rest.filterMap Visit.depth? := rfl
      obtain ⟨refused, passed⟩ := @checkVisits_kept limits count depth rest
      rw [depths]
      by_cases crosses : limits.Crosses count depth
      · rw [refused crosses]
        constructor
        · intro same
          cases same
          exact ⟨0, depth, crossesFirst_zero_iff.2 ⟨rfl, crosses⟩, rfl⟩
        · rintro ⟨index, other, first, rfl⟩
          cases index with
          | zero => rw [(crossesFirst_zero_iff.1 first).1, Nat.add_zero]
          | succ index => exact absurd crosses (crossesFirst_succ_iff.1 first).1
      · rw [passed crosses, ih]
        constructor
        · rintro ⟨index, other, first, rfl⟩
          refine ⟨index + 1, other, crossesFirst_succ_iff.2 ⟨crosses, first⟩, ?_⟩
          rw [Nat.add_right_comm, Nat.add_assoc]
        · rintro ⟨index, other, first, rfl⟩
          cases index with
          | zero => exact absurd (crossesFirst_zero_iff.1 first).2 crosses
          | succ index =>
            refine ⟨index, other, (crossesFirst_succ_iff.1 first).2, ?_⟩
            rw [Nat.add_right_comm, Nat.add_assoc]

/-- The limits look at the depths of what is kept and at nothing else. -/
theorem checkVisits_congr {visits others : List Visit}
    (same : others.filterMap Visit.depth? = visits.filterMap Visit.depth?) :
    limits.checkVisits count others = limits.checkVisits count visits := by
  cases here : limits.checkVisits count visits with
  | ok _ =>
    rw [checkVisits_eq_ok_iff] at here ⊢
    rw [same]
    exact here
  | error e =>
    rw [checkVisits_eq_error_iff] at here ⊢
    rw [same]
    exact here

end Limits

namespace Xml

/-- A node that is dropped from what is in an element: an element of no known kind, or any element
if the one around it holds text. -/
def Node.isDropped (holdsText : Bool) : Node → Bool
  | .element tag _ => holdsText || (Kind.ofName? tag.name).isNone
  | _ => false

mutual

/-- A node without whatever is dropped from what is in it. -/
def Node.pruned : Node → Node
  | .element tag children =>
    .element tag (prunedAll ((Kind.ofName? tag.name).any Kind.holdsText) children)
  | node => node

/-- The nodes in an element without those that are dropped. -/
def prunedAll (holdsText : Bool) : List Node → List Node
  | [] => []
  | node :: rest =>
    if node.isDropped holdsText then prunedAll holdsText rest
    else node.pruned :: prunedAll holdsText rest

end

/-- A document without whatever is dropped from it. -/
def Document.pruned (document : Document) : Document where
  root := document.root
  children := prunedAll ((Kind.ofName? document.root.name).any Kind.holdsText) document.children

theorem Document.toNode_pruned (document : Document) :
    document.pruned.toNode = document.toNode.pruned := by
  rw [toNode, toNode, Node.pruned]
  rfl

end Xml

namespace Visit

theorem ofNode_of_isDropped {node : Xml.Node} (dropped : node.isDropped false = true)
    (depth : Nat) : (ofNode depth node).filterMap depth? = [] := by
  cases node with
  | element tag children =>
    have unknown : Kind.ofName? tag.name = none := by
      simpa [Xml.Node.isDropped] using dropped
    rw [ofNode, unknown]
    rfl
  | text | comment | instruction => cases dropped

mutual

/-- What is dropped is not among what is met and kept. -/
theorem filterMap_ofNode_pruned (depth : Nat) (node : Xml.Node) :
    (ofNode depth node.pruned).filterMap depth? = (ofNode depth node).filterMap depth? := by
  match node with
  | .element tag children =>
    rw [Xml.Node.pruned, ofNode, ofNode]
    cases known : Kind.ofName? tag.name with
    | none => rfl
    | some kind =>
      cases holds : kind.holdsText with
      | true => simp [holds]
      | false =>
        have inside := filterMap_ofNodes_pruned (depth + 1) children
        simpa [holds, depth?] using inside
  | .text _ | .comment _ | .instruction _ _ => rfl

theorem filterMap_ofNodes_pruned (depth : Nat) (nodes : List Xml.Node) :
    (ofNodes depth (Xml.prunedAll false nodes)).filterMap depth? =
      (ofNodes depth nodes).filterMap depth? := by
  match nodes with
  | [] => rw [Xml.prunedAll]
  | node :: rest =>
    have behind := filterMap_ofNodes_pruned depth rest
    rw [Xml.prunedAll, ofNodes, List.filterMap_append]
    split
    · rename_i dropped
      rw [ofNode_of_isDropped dropped, behind, List.nil_append]
    · rw [ofNodes, List.filterMap_append, filterMap_ofNode_pruned depth node, behind]

end

end Visit

namespace Grammar

variable {document : Xml.Document} {kind : Kind} {limits : Limits}

/-- The depths of the kept elements of a document, in document order. -/
def keptDepths (document : Xml.Document) : List Nat :=
  (keptAddresses document.toNode).map fun address => address.length + 1

theorem filterMap_visits (document : Xml.Document) :
    (Visit.ofNode 1 document.toNode).filterMap Visit.depth? = keptDepths document := by
  rw [Visit.filterMap_ofNode, keptDepths]
  exact List.map_congr_left fun address _ => Nat.add_comm ..

/-- A document with a known root is read as what is kept of it, unless the limits are in the way. -/
theorem exists_ofDocument_iff (structural : document.root.name.uri = some Namespace.structural)
    (known : Kind.ofTag? document.root.name.localName = some kind) : ∃ g, ∀ limits,
      (∀ e, ofDocument limits document = .error e ↔
        limits.checkVisits 0 (Visit.ofNode 1 document.toNode) = .error e) ∧
      ∀ h, ofDocument limits document = .ok h ↔
        h = g ∧ limits.checkVisits 0 (Visit.ofNode 1 document.toNode) = .ok () := by
  have named : Kind.ofName? document.root.name = some kind := by
    rw [Kind.ofName?, if_pos structural, known]
  have root : checkRoot document = .ok () := if_pos structural
  obtain ⟨particle, found⟩ := exists_particle named
  refine ⟨particle.grammar, fun limits => ?_⟩
  rw [ofDocument, rootParticle, root, found]
  cases limits.checkVisits 0 (Visit.ofNode 1 document.toNode) <;>
    simp [bind, Except.bind, pure, Except.pure, eq_comm]

/-- Without what is dropped from it a document is refused for the same reasons. -/
theorem checkVisits_pruned (limits : Limits) (document : Xml.Document) :
    limits.checkVisits 0 (Visit.ofNode 1 document.pruned.toNode) =
      limits.checkVisits 0 (Visit.ofNode 1 document.toNode) := by
  rw [Xml.Document.toNode_pruned]
  exact Limits.checkVisits_congr (Visit.filterMap_ofNode_pruned 1 _)

/-- The limits refuse a document exactly if a kept element stands too deep or there are too many. -/
theorem exists_checkVisits_error_iff (limits : Limits) (document : Xml.Document) :
    (∃ e, limits.checkVisits 0 (Visit.ofNode 1 document.toNode) = .error e) ↔
      (∃ address, Retained document.toNode address ∧ limits.maxDepth < address.length + 1) ∨
        limits.maxNodes < (keptAddresses document.toNode).length := by
  have admitted := @Limits.checkVisits_document_iff limits document.toNode
  simp only [mem_keptAddresses, Nat.add_comm 1] at admitted
  have either : (∃ e, limits.checkVisits 0 (Visit.ofNode 1 document.toNode) = .error e) ↔
      ¬ limits.checkVisits 0 (Visit.ofNode 1 document.toNode) = .ok () := by
    cases limits.checkVisits 0 (Visit.ofNode 1 document.toNode) <;> simp
  rw [either, admitted, not_and_or]
  push Not
  rfl

/-- How the limits decide about a document with a known root. It is refused for the first of its
kept elements that crosses a limit, and there is one exactly if some kept element stands too deep
or there are too many. Under all other limits its grammar is the same. Without what is dropped
from it the document is refused for the same reasons. -/
theorem decided_by_limits (structural : document.root.name.uri = some Namespace.structural)
    (known : Kind.ofTag? document.root.name.localName = some kind) :
    ∃ (addresses : List Address) (g : Grammar), addresses.Pairwise (· < ·) ∧
      (∀ address, address ∈ addresses ↔ Retained document.toNode address) ∧
      ∀ limits : Limits,
        ((∃ excess, ofDocument limits document = .error (.limitExceeded excess)) ↔
          (∃ address, Retained document.toNode address ∧ limits.maxDepth < address.length + 1) ∨
            limits.maxNodes < addresses.length) ∧
        (∀ e, ofDocument limits document = .error e ↔ ∃ index depth,
          limits.CrossesFirst 0 (addresses.map fun address => address.length + 1) index depth ∧
            e = .limitExceeded (limits.excess index depth)) ∧
        (∀ h, ofDocument limits document = .ok h ↔ h = g ∧
          (∀ address, Retained document.toNode address → address.length + 1 ≤ limits.maxDepth) ∧
            addresses.length ≤ limits.maxNodes) ∧
        ∀ e, ofDocument limits document.pruned = .error e ↔
          ofDocument limits document = .error e := by
  obtain ⟨g, read⟩ := exists_ofDocument_iff structural known
  obtain ⟨_, pruned⟩ := @exists_ofDocument_iff document.pruned _ structural known
  refine ⟨keptAddresses document.toNode, g, keptAddresses_sorted _,
    fun _ => mem_keptAddresses _, fun limits => ?_⟩
  have first (e : Error) : ofDocument limits document = .error e ↔ ∃ index depth,
      limits.CrossesFirst 0 (keptDepths document) index depth ∧
        e = .limitExceeded (limits.excess index depth) := by
    rw [(read limits).1, Limits.checkVisits_eq_error_iff, filterMap_visits]
    simp only [Nat.zero_add]
  refine ⟨?_, first, fun h => ?_, fun e => ?_⟩
  · rw [← exists_checkVisits_error_iff]
    constructor
    · rintro ⟨excess, refused⟩
      exact ⟨_, ((read limits).1 _).1 refused⟩
    · rintro ⟨e, refused⟩
      have failed := ((read limits).1 e).2 refused
      obtain ⟨index, depth, _, rfl⟩ := (first e).1 failed
      exact ⟨_, failed⟩
  · rw [(read limits).2, Limits.checkVisits_document_iff]
    simp only [mem_keptAddresses, Nat.add_comm 1]
  · rw [(pruned limits).1, (read limits).1, checkVisits_pruned]

theorem keptDepths_remarked : keptDepths remarkedDocument = [1, 2, 3, 4, 4, 4, 2, 3] := by
  decide +kernel

/-- The fourth element stands too deep and is one too many under the first limits, and what is told
about it is its depth. -/
theorem remarked_refused :
    remarkedDocument.root.name.uri = some Namespace.structural ∧
      Kind.ofTag? remarkedDocument.root.name.localName = some .grammar ∧
      ofDocument ⟨0, 3, 3⟩ remarkedDocument = .error (.limitExceeded (.depth 4 3)) ∧
      ∃ g, ofDocument ⟨0, 4, 8⟩ remarkedDocument = .ok g := by
  have known : Kind.ofTag? remarkedDocument.root.name.localName = some .grammar := by decide +kernel
  obtain ⟨addresses, g, sorted, among, decided⟩ :=
    @decided_by_limits remarkedDocument _ rfl known
  obtain rfl := eq_keptAddresses sorted among
  have first : Limits.CrossesFirst ⟨0, 3, 3⟩ 0 (keptDepths remarkedDocument) 3 4 := by
    rw [keptDepths_remarked]
    iterate 3 refine Limits.crossesFirst_succ_iff.2 ⟨by decide, ?_⟩
    exact Limits.crossesFirst_zero_iff.2 ⟨rfl, by decide⟩
  have within : (∀ depth ∈ keptDepths remarkedDocument, depth ≤ 4) ∧
      (keptDepths remarkedDocument).length ≤ 8 := by
    rw [keptDepths_remarked]
    decide
  refine ⟨rfl, known, ((decided ⟨0, 3, 3⟩).2.1 _).2 ⟨3, 4, first, rfl⟩, g, ?_⟩
  refine ((decided ⟨0, 4, 8⟩).2.2.1 g).2 ⟨rfl, fun address retained => ?_, ?_⟩
  · exact within.1 _ (List.mem_map_of_mem ((among address).2 retained))
  · simpa [keptDepths] using within.2

end Grammar

end RelaxDoc
