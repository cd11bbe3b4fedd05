import RelaxDoc.Grammar.Build
import RelaxDoc.Proofs.Grammar.Retention

/-! The limits in words of addresses: how deep the kept elements of a document stand is how long
their addresses are, and how many there are is how many addresses there are. -/
namespace RelaxDoc

/-- The depth of an element met that is kept. -/
def Visit.depth? : Visit → Option Nat
  | .kept depth => some depth
  | .skipped _ => none

namespace Visit

mutual

theorem filterMap_ofNode (depth : Nat) (node : Xml.Node) :
    (ofNode depth node).filterMap depth? =
      (keptAddresses node).map fun address => depth + address.length := by
  match node with
  | .element tag children =>
    rw [ofNode]
    cases known : Kind.ofName? tag.name with
    | none =>
      rw [keptAddresses, known]
      rfl
    | some kind =>
      rw [keptAddresses_element known, List.filterMap_cons, List.map_cons]
      cases kind.holdsText with
      | true => rfl
      | false => exact congrArg (depth :: ·) (filterMap_ofNodes depth 0 children)
  | .text _ | .comment _ | .instruction _ _ => rfl

theorem filterMap_ofNodes (depth index : Nat) (nodes : List Xml.Node) :
    (ofNodes (depth + 1) nodes).filterMap depth? =
      (keptAddressesOfAll index nodes).map fun address => depth + address.length := by
  match nodes with
  | [] => rfl
  | node :: rest =>
    rw [ofNodes, keptAddressesOfAll, List.filterMap_append, List.map_append,
      filterMap_ofNode (depth + 1) node, filterMap_ofNodes depth (index + 1) rest, List.map_map]
    congr 2
    funext address
    simp [Nat.add_right_comm, Nat.add_assoc]

end

end Visit

namespace Limits

variable {limits : Limits}

theorem checkVisits_kept_eq_ok_iff {count depth : Nat} {rest : List Visit} :
    limits.checkVisits count (.kept depth :: rest) = .ok () ↔
      depth ≤ limits.maxDepth ∧ count + 1 ≤ limits.maxNodes ∧
        limits.checkVisits (count + 1) rest = .ok () := by
  rw [Limits.checkVisits, checkDepth, checkNodes]
  by_cases shallow : depth ≤ limits.maxDepth
  · by_cases room : count + 1 ≤ limits.maxNodes
    · rw [if_neg (Nat.not_lt.2 shallow), if_neg (Nat.not_lt.2 room)]
      simp [shallow, room, bind, Except.bind]
    · rw [if_neg (Nat.not_lt.2 shallow), if_pos (Nat.lt_of_not_le room)]
      simp [room, bind, Except.bind]
  · rw [if_pos (Nat.lt_of_not_le shallow)]
    simp [shallow, bind, Except.bind]

/-- Elements are admitted if none stands too deep and the last of them is not one too many. -/
theorem checkVisits_eq_ok_iff {count : Nat} {visits : List Visit} :
    limits.checkVisits count visits = .ok () ↔
      (∀ depth ∈ visits.filterMap Visit.depth?, depth ≤ limits.maxDepth) ∧
        (visits.filterMap Visit.depth? = [] ∨
          count + (visits.filterMap Visit.depth?).length ≤ limits.maxNodes) := by
  induction visits generalizing count with
  | nil => simp [Limits.checkVisits]
  | cons visit rest ih =>
    cases visit with
    | skipped name =>
      rw [Limits.checkVisits, ih]
      rfl
    | kept depth =>
      rw [checkVisits_kept_eq_ok_iff, ih, List.filterMap_cons]
      simp only [Visit.depth?, List.forall_mem_cons, List.length_cons]
      constructor
      · rintro ⟨shallow, room, others, none | further⟩
        · exact ⟨⟨shallow, others⟩, .inr (by simpa [none] using room)⟩
        · exact ⟨⟨shallow, others⟩, .inr (by omega)⟩
      · rintro ⟨⟨shallow, others⟩, none | further⟩
        · cases none
        · exact ⟨shallow, by omega, others, .inr (by omega)⟩

/-- A document is admitted if no address in it is too long and there are not too many. -/
theorem checkVisits_document_iff {root : Xml.Node} :
    limits.checkVisits 0 (Visit.ofNode 1 root) = .ok () ↔
    (∀ address ∈ keptAddresses root, 1 + address.length ≤ limits.maxDepth) ∧
      (keptAddresses root).length ≤ limits.maxNodes := by
  rw [checkVisits_eq_ok_iff, Visit.filterMap_ofNode, List.forall_mem_map, List.length_map, Nat.zero_add,
    List.map_eq_nil_iff]
  refine and_congr_right fun _ => ⟨?_, .inr⟩
  rintro (none | within)
  · rw [none]
    exact Nat.zero_le _
  · exact within

end Limits

end RelaxDoc
