import RelaxDoc.Proofs.Grammar.Preorder
import Mathlib.Data.List.Sort
import Mathlib.Data.List.Nodup

/-! The nodes of a grammar by the addresses of their elements: which node has an address, and which
addresses its parent and its children have. -/
namespace RelaxDoc

namespace Xml.Node

variable {root node outer : Node} {around : Address} {step : Nat}

theorem at?_concat_iff : root.at? (around ++ [step]) = some node ↔
    ∃ outer, root.at? around = some outer ∧ outer.children[step]? = some node := by
  induction around generalizing root with
  | nil => simp [at?]
  | cons index rest ih =>
    rw [List.cons_append, at?_cons]
    simp only [ih, at?_cons]
    constructor
    · rintro ⟨child, found, outer, reached, last⟩
      exact ⟨outer, ⟨child, found, reached⟩, last⟩
    · rintro ⟨outer, ⟨child, found, reached⟩, last⟩
      exact ⟨child, found, outer, reached, last⟩

end Xml.Node

open Xml (Address)

/-- The positions of the nodes that are elements of known kinds. -/
def keptSteps (nodes : List Xml.Node) : List Nat :=
  (List.range nodes.length).filter fun step => (nodes[step]?.bind Kind.ofNode?).isSome

theorem mem_keptSteps {nodes : List Xml.Node} {step : Nat} :
    step ∈ keptSteps nodes ↔ ∃ node kind, nodes[step]? = some node ∧
      Kind.ofNode? node = some kind := by
  simp only [keptSteps, List.mem_filter, List.mem_range, Option.isSome_iff_exists,
    Option.bind_eq_some_iff]
  constructor
  · intro ⟨_, kind, node, found, known⟩
    exact ⟨node, kind, found, known⟩
  · intro ⟨node, kind, found, known⟩
    exact ⟨(List.getElem?_eq_some_iff.1 found).1, kind, node, found, known⟩

theorem keptSteps_sorted (nodes : List Xml.Node) : (keptSteps nodes).Pairwise (· < ·) :=
  List.pairwise_lt_range.filter _

/-- Going through the positions of the elements of known kinds is going through their kinds. -/
theorem filterMap_keptSteps (nodes : List Xml.Node) :
    (keptSteps nodes).filterMap (fun step => nodes[step]?.bind Kind.ofNode?) =
      nodes.filterMap Kind.ofNode? := by
  have all : (List.range nodes.length).map (fun step => nodes[step]?) = nodes.map some := by
    apply List.ext_getElem
    · simp
    · intro step _ _
      simp
  calc (keptSteps nodes).filterMap (fun step => nodes[step]?.bind Kind.ofNode?)
      = (List.range nodes.length).filterMap (fun step => nodes[step]?.bind Kind.ofNode?) := by
        rw [keptSteps, List.filterMap_filter]
        congr 1
        funext step
        cases nodes[step]?.bind Kind.ofNode? <;> rfl
    _ = ((List.range nodes.length).map (fun step => nodes[step]?)).filterMap
          (fun node => node.bind Kind.ofNode?) := by rw [List.filterMap_map]; rfl
    _ = nodes.filterMap Kind.ofNode? := by rw [all, List.filterMap_map]; rfl

/-- Behind what is kept in front of a position comes the position, if it is kept too. -/
theorem exists_keptSteps_append {nodes : List Xml.Node} {step : Nat}
    (member : step ∈ keptSteps nodes) :
    ∃ back, keptSteps nodes = keptSteps (nodes.take step) ++ step :: back := by
  obtain ⟨inside, kept⟩ := List.mem_filter.1 member
  obtain ⟨beyond, length⟩ := Nat.exists_eq_add_of_lt (List.mem_range.1 inside)
  have front : (List.range step).filter (fun other => (nodes[other]?.bind Kind.ofNode?).isSome) =
      keptSteps (nodes.take step) := by
    rw [keptSteps, List.length_take_of_le (by omega)]
    refine List.filter_congr fun other before => ?_
    rw [List.getElem?_take_of_lt (List.mem_range.1 before)]
  have split : List.range nodes.length =
      List.range step ++ step :: (List.range beyond).map (step + 1 + ·) := by
    rw [length, Nat.add_right_comm, List.range_add, List.range_succ, List.append_assoc]
    rfl
  rw [keptSteps, split, List.filter_append, front, List.filter_cons, if_pos kept]
  exact ⟨_, rfl⟩

namespace Retained

variable {root node inner : Xml.Node} {address : Address} {step : Nat} {kind : Kind}

/-- A child of a known kind is kept with the node it is in, if that one is looked into. -/
theorem concat (retained : Retained root address) (found : root.at? address = some node)
    (looked : node.LookedInto) (child : node.children[step]? = some inner)
    (known : Kind.ofNode? inner = some kind) : Retained root (address ++ [step]) := by
  refine ⟨⟨inner, kind, Xml.Node.at?_concat_iff.2 ⟨node, found, child⟩, known⟩, ?_⟩
  intro outer leading other
  rcases List.prefix_concat_iff.1 leading with whole | leading
  · exact absurd whole other
  · by_cases same : outer = address
    · exact ⟨node, same ▸ found, looked⟩
    · exact retained.2 outer leading same

end Retained

namespace Grammar.Enumerates

variable {g : Grammar} {root node : Xml.Node} {addresses : List Address} {id child : Nat}
  {address other : Address} {step : Nat} (enumerates : g.Enumerates root addresses)

include enumerates

theorem nodup : addresses.Nodup := enumerates.sorted.nodup

theorem retained (found : addresses[id]? = some address) : Retained root address :=
  (enumerates.mem_iff address).1 (List.mem_of_getElem? found)

/-- What is kept at an address is the node that has its position. -/
theorem getElem?_idxOf (retained : Retained root address) :
    addresses[addresses.idxOf address]? = some address :=
  List.getElem?_idxOf ((enumerates.mem_iff address).2 retained)

theorem idxOf_eq (found : addresses[id]? = some address) : addresses.idxOf address = id := by
  obtain ⟨inside, same⟩ := List.getElem?_eq_some_iff.1 found
  rw [← same]
  exact enumerates.nodup.idxOf_getElem id inside

theorem exists_address (inside : id < g.size) : ∃ address, addresses[id]? = some address :=
  ⟨_, List.getElem?_eq_getElem (enumerates.length_eq ▸ inside)⟩

theorem lt_size (found : addresses[id]? = some address) : id < g.size :=
  enumerates.length_eq ▸ (List.getElem?_eq_some_iff.1 found).1

/-- Nodes are in the order of their addresses. -/
theorem lt_iff {further : Nat} (found : addresses[id]? = some address)
    (also : addresses[further]? = some other) : id < further ↔ address < other := by
  obtain ⟨inside, rfl⟩ := List.getElem?_eq_some_iff.1 found
  obtain ⟨within, rfl⟩ := List.getElem?_eq_some_iff.1 also
  have ascend {i j : Nat} (hi : i < addresses.length) (hj : j < addresses.length) (less : i < j) :
      addresses[i] < addresses[j] := List.pairwise_iff_getElem.1 enumerates.sorted i j hi hj less
  refine ⟨ascend inside within, fun less => ?_⟩
  rcases Nat.lt_trichotomy id further with before | rfl | behind
  · exact before
  · exact absurd less (List.lt_irrefl _)
  · exact absurd (List.lt_trans less (ascend within inside behind)) (List.lt_irrefl _)

/-- Nodes in one element are in the order of their elements. -/
theorem siblings_lt_iff {further next : Nat} (found : addresses[id]? = some (address ++ [step]))
    (also : addresses[further]? = some (address ++ [next])) : id < further ↔ step < next := by
  rw [enumerates.lt_iff found also]
  clear found also
  induction address with
  | nil => simp [List.cons_lt_cons_iff]
  | cons index rest ih => simpa [List.cons_lt_cons_iff] using ih

theorem parent?_eq (found : addresses[id]? = some (address ++ [step])) :
    g.parent? id = some (addresses.idxOf address) := by
  obtain ⟨outer, above, listed⟩ := enumerates.parent id address step found
  rw [above, enumerates.idxOf_eq listed]

/-- The root has no parent, as nothing comes before it. -/
theorem parent?_of_nil (found : addresses[id]? = some []) : g.parent? id = none := by
  rw [Option.eq_none_iff_forall_ne_some]
  intro outer above
  have less := g.parent?_lt above
  obtain ⟨address, there⟩ :=
    enumerates.exists_address (Nat.lt_trans less (enumerates.lt_size found))
  exact absurd ((enumerates.lt_iff there found).1 less) (List.not_lt_nil _)

/-- The children of a node have the addresses that go one step further. -/
theorem mem_children_iff (loaded : g.Loaded) (found : addresses[id]? = some address) :
    child ∈ g.children id ↔ ∃ step, addresses[child]? = some (address ++ [step]) := by
  constructor
  · intro member
    obtain ⟨further, there⟩ := enumerates.exists_address (g.child_lt_size member)
    rcases List.eq_nil_or_concat further with top | ⟨around, step, split⟩
    · -- Nothing comes before the root.
      have less := (enumerates.lt_iff found there).1 (g.lt_of_mem_children member)
      rw [top] at less
      exact absurd less (List.not_lt_nil _)
    · rw [List.concat_eq_append] at split
      rw [split] at there
      obtain ⟨outer, above, listed⟩ := enumerates.parent child around step there
      rw [loaded.mem_children_iff.1 member] at above
      rw [← Option.some.inj above, found] at listed
      cases listed
      exact ⟨step, there⟩
  · intro ⟨step, there⟩
    have above := enumerates.parent?_eq there
    rw [enumerates.idxOf_eq found] at above
    exact loaded.mem_children_iff.2 above

/-- The children of a node that is looked into are the elements of known kinds in it, in order. -/
theorem children_eq (loaded : g.Loaded) (found : addresses[id]? = some address)
    (reached : root.at? address = some node) (looked : node.LookedInto) :
    g.children id =
      (keptSteps node.children).map fun step => addresses.idxOf (address ++ [step]) := by
  have kept {step : Nat} (member : step ∈ keptSteps node.children) :
      addresses[addresses.idxOf (address ++ [step])]? = some (address ++ [step]) := by
    obtain ⟨inner, kind, child, known⟩ := mem_keptSteps.1 member
    exact enumerates.getElem?_idxOf
      ((enumerates.retained found).concat reached looked child known)
  apply List.Pairwise.eq_of_mem_iff (g.children_sorted id)
  · refine List.pairwise_map.2 ((keptSteps_sorted _).imp_of_mem fun one other less => ?_)
    exact (enumerates.siblings_lt_iff (kept one) (kept other)).2 less
  · intro child
    rw [enumerates.mem_children_iff loaded found, List.mem_map]
    constructor
    · intro ⟨step, there⟩
      obtain ⟨⟨inner, kind, below, known⟩, _⟩ := enumerates.retained there
      obtain ⟨outer, here, last⟩ := Xml.Node.at?_concat_iff.1 below
      cases here.symm.trans reached
      exact ⟨step, mem_keptSteps.2 ⟨inner, kind, last, known⟩, enumerates.idxOf_eq there⟩
    · rintro ⟨step, member, rfl⟩
      exact ⟨step, kept member⟩

theorem kind_eq (found : addresses[id]? = some address) (reached : root.at? address = some node) :
    Kind.ofNode? node = some (g.kind id) := by
  obtain ⟨tag, children, there, records⟩ := enumerates.depicts id address found
  cases there.symm.trans reached
  exact records.kind

/-- The kinds of the first nodes in a node that is looked into are those of the first elements. -/
theorem kinds_of_prefix (found : addresses[id]? = some address)
    (reached : root.at? address = some node) (looked : node.LookedInto) {front : List Xml.Node}
    (leading : front <+: node.children) :
    ((keptSteps front).map fun step => g.kind (addresses.idxOf (address ++ [step]))) =
      front.filterMap Kind.ofNode? := by
  rw [← filterMap_keptSteps, ← List.filterMap_eq_map]
  apply List.filterMap_congr
  intro step member
  obtain ⟨inner, kind, first, known⟩ := mem_keptSteps.1 member
  have child : node.children[step]? = some inner := by
    obtain ⟨back, whole⟩ := leading
    rwa [← whole, List.getElem?_append_left (List.getElem?_eq_some_iff.1 first).1]
  have there := enumerates.getElem?_idxOf
    ((enumerates.retained found).concat reached looked child known)
  have below := Xml.Node.at?_concat_iff.2 ⟨node, reached, child⟩
  rw [first, Option.bind_some, enumerates.kind_eq there below]
  rfl

/-- The kinds of the children of a node that is looked into are those of the elements in it. -/
theorem children_kinds (loaded : g.Loaded) (found : addresses[id]? = some address)
    (reached : root.at? address = some node) (looked : node.LookedInto) :
    (g.children id).map g.kind = node.children.filterMap Kind.ofNode? := by
  rw [enumerates.children_eq loaded found reached looked, List.map_map]
  exact enumerates.kinds_of_prefix found reached looked (List.prefix_refl _)

end Grammar.Enumerates

/-- There is one list of the retained elements in document order. -/
theorem eq_keptAddresses {node : Xml.Node} {addresses : List Address}
    (sorted : addresses.Pairwise (· < ·))
    (among : ∀ address, address ∈ addresses ↔ Retained node address) :
    addresses = keptAddresses node :=
  sorted.eq_of_mem_iff (keptAddresses_sorted node) fun address =>
    (among address).trans (mem_keptAddresses node).symm

/-- A grammar that is read from a document lists the kept elements of the document. -/
theorem Grammar.enumerates_of_read {g : Grammar} {limits : Limits} {document : Xml.Document}
    (read : ofDocument limits document = .ok g) :
    g.Enumerates document.toNode (keptAddresses document.toNode) := by
  obtain ⟨_, _, particle, kept, rfl⟩ := ofDocument_eq_ok_iff.1 read
  exact enumerates_keptAddresses kept

/-- Nodes that hold text have no children. -/
theorem Grammar.Loaded.children_of_holdsText {g : Grammar} (loaded : g.Loaded) {id : Nat}
    (holds : (g.kind id).holdsText = true) : g.children id = [] := by
  have ⟨limits, document, read⟩ := loaded
  have enumerates := enumerates_of_read read
  refine List.eq_nil_iff_forall_not_mem.2 fun child member => ?_
  have inside := Nat.lt_trans (g.lt_of_mem_children member) (g.child_lt_size member)
  obtain ⟨address, found⟩ := enumerates.exists_address inside
  obtain ⟨step, below⟩ := (enumerates.mem_children_iff loaded found).1 member
  obtain ⟨outer, reached, kind, known, plain⟩ :=
    (enumerates.retained below).2 address (List.prefix_append _ _) (by simp)
  rw [enumerates.kind_eq found reached] at known
  rw [← Option.some.inj known, holds] at plain
  cases plain

end RelaxDoc
