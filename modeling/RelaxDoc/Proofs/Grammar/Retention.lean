import RelaxDoc.Grammar.Layout
import Mathlib.Data.List.Forall2

/-! The elements of a document that a grammar keeps, by their addresses. In document order they are
the nodes of the grammar, one by one. -/
namespace RelaxDoc

namespace Xml

/-- The way from the root of a tree to a node: the position of a child for each step. Addresses are
in document order if they are in the order of lists. -/
abbrev Address := List Nat

/-- The nodes in a node. -/
def Node.children : Node → List Node
  | .element _ children => children
  | _ => []

/-- The node at an address. -/
def Node.at? (node : Node) : Address → Option Node
  | [] => some node
  | index :: rest => node.children[index]?.bind fun child => child.at? rest

theorem Node.at?_cons {node inner : Node} {index : Nat} {rest : Address} :
    node.at? (index :: rest) = some inner ↔
      ∃ child, node.children[index]? = some child ∧ child.at? rest = some inner := by
  rw [at?, Option.bind_eq_some_iff]

end Xml

namespace Kind

/-- The name of the elements of a kind. -/
def xmlName (kind : Kind) : Xml.Name :=
  ⟨some (if kind = .documentation then Namespace.compatibility else Namespace.structural), kind.tag⟩

theorem ofName?_eq_some_iff {name : Xml.Name} {kind : Kind} :
    ofName? name = some kind ↔ name = kind.xmlName := by
  unfold ofName?
  constructor
  · intro found
    split at found
    · rename_i structural
      have plain : kind ≠ .documentation :=
        (mem_structural_iff kind).1 (List.mem_of_find?_eq_some found)
      obtain ⟨uri, localName⟩ := name
      simp only at structural found
      rw [Kind.xmlName, if_neg plain, structural, tag_of_ofTag? found]
    · split at found
      · rename_i same
        cases found
        exact same
      · cases found
  · rintro rfl
    by_cases documentation : kind = .documentation
    · rw [documentation]
      decide +kernel
    · rw [Kind.xmlName, if_neg documentation, if_pos rfl, ofTag?_tag documentation]

end Kind

/-- The kind of a node that is an element of a known kind. -/
def Kind.ofNode? : Xml.Node → Option Kind
  | .element tag _ => ofName? tag.name
  | _ => none

/-- A node of a document whose content is looked into for nodes of the grammar. -/
def Xml.Node.LookedInto (node : Xml.Node) : Prop :=
  ∃ kind, Kind.ofNode? node = some kind ∧ kind.holdsText = false

open Xml (Address)

/-- A document keeps at an address an element of a known kind, if the elements around it are of
known kinds too and none of them holds text. -/
def Retained (root : Xml.Node) (address : Address) : Prop :=
  (∃ node kind, root.at? address = some node ∧ Kind.ofNode? node = some kind) ∧
    ∀ outer, outer <+: address → outer ≠ address →
      ∃ node, root.at? outer = some node ∧ node.LookedInto

namespace Retained

variable {root : Xml.Node}

theorem nil_iff : Retained root [] ↔ ∃ kind, Kind.ofNode? root = some kind := by
  constructor
  · intro ⟨⟨node, kind, found, known⟩, _⟩
    cases found
    exact ⟨kind, known⟩
  · intro ⟨kind, known⟩
    refine ⟨⟨root, kind, rfl, known⟩, fun outer leading other => ?_⟩
    exact absurd (List.prefix_nil.1 leading) other

theorem cons_iff {index : Nat} {rest : Address} : Retained root (index :: rest) ↔
    root.LookedInto ∧ ∃ child, root.children[index]? = some child ∧ Retained child rest := by
  constructor
  · intro ⟨⟨node, kind, found, known⟩, around⟩
    obtain ⟨child, here, below⟩ := Xml.Node.at?_cons.1 found
    refine ⟨?_, child, here, ⟨node, kind, below, known⟩, fun outer leading other => ?_⟩
    · obtain ⟨same, top, looked⟩ := around [] (List.nil_prefix ..) nofun
      cases top
      exact looked
    · have longer : index :: outer <+: index :: rest := List.cons_prefix_cons.2 ⟨rfl, leading⟩
      obtain ⟨inner, reached, looked⟩ := around _ longer (by simpa using other)
      obtain ⟨again, there, reached⟩ := Xml.Node.at?_cons.1 reached
      rw [here] at there
      cases there
      exact ⟨inner, reached, looked⟩
  · intro ⟨looked, child, here, ⟨node, kind, below, known⟩, around⟩
    refine ⟨⟨node, kind, Xml.Node.at?_cons.2 ⟨child, here, below⟩, known⟩, ?_⟩
    intro outer leading other
    cases outer with
    | nil => exact ⟨root, rfl, looked⟩
    | cons first outer =>
      obtain ⟨rfl, within⟩ := List.cons_prefix_cons.1 leading
      obtain ⟨inner, reached, looked⟩ := around outer within (by simpa using other)
      exact ⟨inner, Xml.Node.at?_cons.2 ⟨child, here, reached⟩, looked⟩

theorem root_known {address : Address} (retained : Retained root address) :
    ∃ kind, Kind.ofNode? root = some kind := by
  cases address with
  | nil => exact nil_iff.1 retained
  | cons index rest =>
    obtain ⟨⟨kind, known, _⟩, _⟩ := cons_iff.1 retained
    exact ⟨kind, known⟩

end Retained

mutual

/-- The addresses of the kept elements of a node, in document order. -/
def keptAddresses : Xml.Node → List Address
  | .element tag children =>
    match Kind.ofName? tag.name with
    | none => []
    | some kind => [] :: if kind.holdsText then [] else keptAddressesOfAll 0 children
  | .text _ => []
  | .comment _ => []
  | .instruction _ _ => []

/-- The addresses of the kept elements of several nodes, the first of them at `index`. -/
def keptAddressesOfAll (index : Nat) : List Xml.Node → List Address
  | [] => []
  | node :: rest => (keptAddresses node).map (index :: ·) ++ keptAddressesOfAll (index + 1) rest

end

mutual

theorem mem_keptAddresses {address : Address} (node : Xml.Node) :
    address ∈ keptAddresses node ↔ Retained node address := by
  match node with
  | .element tag children =>
    rw [keptAddresses]
    cases known : Kind.ofName? tag.name with
    | none =>
      refine ⟨nofun, fun retained => ?_⟩
      obtain ⟨kind, found⟩ := retained.root_known
      exact absurd (known.symm.trans found) nofun
    | some kind =>
      cases address with
      | nil => exact ⟨fun _ => Retained.nil_iff.2 ⟨kind, known⟩, fun _ => List.mem_cons_self ..⟩
      | cons index rest =>
        have looked : Xml.Node.LookedInto (.element tag children) ↔ kind.holdsText = false := by
          simp [Xml.Node.LookedInto, Kind.ofNode?, known]
        rw [Retained.cons_iff, looked, Xml.Node.children]
        cases holds : kind.holdsText with
        | true => simp [holds]
        | false =>
          have among : index :: rest ∈ keptAddressesOfAll 0 children ↔ _ :=
            mem_keptAddressesOfAll 0 children
          simp only [List.cons.injEq, Nat.zero_add] at among
          simp [holds, among]
  | .text _ | .comment _ | .instruction _ _ =>
    refine ⟨fun member => absurd member (by simp [keptAddresses]), fun retained => ?_⟩
    obtain ⟨kind, found⟩ := retained.root_known
    cases found

theorem mem_keptAddressesOfAll {address : Address} (index : Nat) (nodes : List Xml.Node) :
    address ∈ keptAddressesOfAll index nodes ↔ ∃ offset rest node,
      address = (index + offset) :: rest ∧ nodes[offset]? = some node ∧ Retained node rest := by
  match nodes with
  | [] => simp [keptAddressesOfAll]
  | node :: later =>
    rw [keptAddressesOfAll, List.mem_append, mem_keptAddressesOfAll (index + 1) later, List.mem_map]
    constructor
    · rintro (⟨rest, member, rfl⟩ | ⟨offset, rest, inner, rfl, found, retained⟩)
      · exact ⟨0, rest, node, rfl, rfl, (mem_keptAddresses node).1 member⟩
      · exact ⟨offset + 1, rest, inner, by rw [Nat.add_right_comm, Nat.add_assoc], found, retained⟩
    · rintro ⟨offset, rest, inner, rfl, found, retained⟩
      cases offset with
      | zero =>
        cases found
        exact .inl ⟨rest, (mem_keptAddresses node).2 retained, rfl⟩
      | succ offset =>
        exact .inr ⟨offset, rest, inner, by rw [Nat.add_right_comm, Nat.add_assoc], found, retained⟩

end

mutual

theorem keptAddresses_sorted (node : Xml.Node) : (keptAddresses node).Pairwise (· < ·) := by
  match node with
  | .element tag children =>
    rw [keptAddresses]
    split
    · exact .nil
    · refine .cons (fun address member => ?_) ?_
      · split at member
        · cases member
        · obtain ⟨_, _, _, rfl, _⟩ := (mem_keptAddressesOfAll 0 children).1 member
          exact List.nil_lt_cons ..
      · split
        · exact .nil
        · exact keptAddressesOfAll_sorted 0 children
  | .text _ | .comment _ | .instruction _ _ => exact .nil

theorem keptAddressesOfAll_sorted (index : Nat) (nodes : List Xml.Node) :
    (keptAddressesOfAll index nodes).Pairwise (· < ·) := by
  match nodes with
  | [] => exact .nil
  | node :: later =>
    rw [keptAddressesOfAll, List.pairwise_append]
    refine ⟨?_, keptAddressesOfAll_sorted (index + 1) later, fun one first other second => ?_⟩
    · refine List.pairwise_map.2 ((keptAddresses_sorted node).imp fun less => ?_)
      exact List.cons_lt_cons_iff.2 (.inr ⟨rfl, less⟩)
    · obtain ⟨rest, _, rfl⟩ := List.mem_map.1 first
      obtain ⟨offset, further, _, rfl, _⟩ := (mem_keptAddressesOfAll (index + 1) later).1 second
      exact List.cons_lt_cons_iff.2 (.inl (by omega))

end

/-- A node of a grammar records an element with this tag and content. -/
structure Node.Records (node : Node) (tag : Xml.Tag) (children : List Xml.Node) : Prop where
  kind : Kind.ofName? tag.name = some node.kind
  attributes : node.attributes = (tag.attributes.filter fun a => a.name.uri.isNone).map fun a =>
    (a.name.localName, if a.name.localName = "ns" then a.value else Text.trimmed a.value)
  no_text : node.kind.holdsText = false → node.text = none
  documentation : node.kind = .documentation → node.text = some (Xml.fullTexts children)
  name : node.kind = .name → node.text = some (Text.trimmed (Xml.directText children))
  text : node.kind = .value ∨ node.kind = .param → node.text = some (Xml.directText children)

theorem plainAttributes_eq (attributes : List Xml.Attribute) :
    plainAttributes attributes = (attributes.filter fun a => a.name.uri.isNone).map fun a =>
      (a.name.localName, if a.name.localName = "ns" then a.value else Text.trimmed a.value) := by
  rw [plainAttributes, ← List.filterMap_eq_map, List.filterMap_filter]
  rfl

theorem Label.records_ofTag {outer : Xml.Scope} {following : List Xml.Node} {kind : Kind}
    {tag : Xml.Tag} {children : List Xml.Node} (known : Kind.ofName? tag.name = some kind)
    (parent : Option Nat) (id : Nat) (inner : List Particle) :
    (Particle.node parent id (.mk (.ofTag outer following kind tag children) inner)).Records
      tag children where
  kind := known
  attributes := plainAttributes_eq tag.attributes
  no_text plain := by
    change keptText kind children = none
    have same : kind.holdsText = false := plain
    rw [keptText, same]
    rfl
  documentation same := by
    change keptText kind children = _
    rw [show kind = .documentation from same]
    rfl
  name same := by
    change keptText kind children = _
    rw [show kind = .name from same]
    rfl
  text same := by
    change keptText kind children = _
    rcases same with same | same
    · rw [show kind = .value from same]
      rfl
    · rw [show kind = .param from same]
      rfl

/-- A node stands for what is at an address of a tree. -/
def Depicts (root : Xml.Node) (address : Address) (node : Node) : Prop :=
  ∃ tag children, root.at? address = some (.element tag children) ∧ node.Records tag children

/-- A node stands for what is at an address of one of several trees. -/
def DepictsAmong (index : Nat) (roots : List Xml.Node) (address : Address) (node : Node) : Prop :=
  ∃ offset rest root, address = (index + offset) :: rest ∧ roots[offset]? = some root ∧
    Depicts root rest node

/-- The parent of a node at an address is the node for the address around it, if it is one of
`addresses`, whose nodes stand from `first` on; at the top it is `parent`. -/
def Hangs (top : Nat) (parent : Option Nat) (first : Nat) (addresses : List Address)
    (address : Address) (node : Node) : Prop :=
  (address.length = top ∧ node.parent = parent) ∨ ∃ around step offset,
    address = around ++ [step] ∧ node.parent = some (first + offset) ∧
      addresses[offset]? = some around

namespace Hangs

variable {top first : Nat} {parent : Option Nat} {address : Address} {node : Node}
  {left right : List Address}

theorem append_right (hangs : Hangs top parent first left address node) :
    Hangs top parent first (left ++ right) address node := by
  rcases hangs with outermost | ⟨around, step, offset, same, above, found⟩
  · exact .inl outermost
  · have inside := (List.getElem?_eq_some_iff.1 found).1
    exact .inr ⟨around, step, offset, same, above, by rwa [List.getElem?_append_left inside]⟩

theorem append_left (hangs : Hangs top parent (first + left.length) right address node) :
    Hangs top parent first (left ++ right) address node := by
  rcases hangs with outermost | ⟨around, step, offset, same, above, found⟩
  · exact .inl outermost
  · refine .inr ⟨around, step, left.length + offset, same, by rw [above, Nat.add_assoc], ?_⟩
    rwa [List.getElem?_append_right (Nat.le_add_right ..), Nat.add_sub_cancel_left]

theorem under (hangs : Hangs top parent first left address node) (index : Nat) :
    Hangs (top + 1) parent first (left.map (index :: ·)) (index :: address) node := by
  rcases hangs with ⟨length, above⟩ | ⟨around, step, offset, rfl, above, found⟩
  · exact .inl ⟨by rw [List.length_cons, length], above⟩
  · refine .inr ⟨index :: around, step, offset, rfl, above, ?_⟩
    rw [List.getElem?_map, found, Option.map_some]

theorem inside (hangs : Hangs 1 (some first) (first + 1) left address node) (outer : Option Nat) :
    Hangs 0 outer first ([] :: left) address node := by
  rcases hangs with ⟨length, above⟩ | ⟨around, step, offset, same, above, found⟩
  · obtain ⟨step, rfl⟩ := List.length_eq_one_iff.1 length
    exact .inr ⟨[], step, 0, rfl, above, rfl⟩
  · refine .inr ⟨around, step, offset + 1, same, ?_, found⟩
    rw [above, Nat.add_assoc, Nat.add_comm 1]

end Hangs

theorem Depicts.under {root child : Xml.Node} {index : Nat} {address : Address} {node : Node}
    (depicts : Depicts child address node) (found : root.children[index]? = some child) :
    Depicts root (index :: address) node := by
  obtain ⟨tag, children, reached, records⟩ := depicts
  exact ⟨tag, children, Xml.Node.at?_cons.2 ⟨child, found, reached⟩, records⟩

theorem DepictsAmong.inside {tag : Xml.Tag} {children : List Xml.Node} {address : Address}
    {node : Node} (depicts : DepictsAmong 0 children address node) :
    Depicts (.element tag children) address node := by
  obtain ⟨offset, rest, child, rfl, found, below⟩ := depicts
  rw [Nat.zero_add]
  exact below.under found

theorem DepictsAmong.behind {index : Nat} {root : Xml.Node} {roots : List Xml.Node}
    {address : Address} {node : Node} (depicts : DepictsAmong (index + 1) roots address node) :
    DepictsAmong index (root :: roots) address node := by
  obtain ⟨offset, rest, child, rfl, found, below⟩ := depicts
  exact ⟨offset + 1, rest, child, by rw [Nat.add_right_comm, Nat.add_assoc], found, below⟩

theorem keptAddresses_element {tag : Xml.Tag} {kind : Kind}
    (known : Kind.ofName? tag.name = some kind) (children : List Xml.Node) :
    keptAddresses (.element tag children) =
      [] :: if kind.holdsText then [] else keptAddressesOfAll 0 children := by
  rw [keptAddresses, known]

theorem keptAddresses_of_not_kept {outer : Xml.Scope} {following : List Xml.Node}
    {root : Xml.Node} (dropped : Particle.ofNode? outer following root = none) :
    keptAddresses root = [] := by
  cases root with
  | element tag children =>
    cases known : Kind.ofName? tag.name with
    | none => rw [keptAddresses, known]
    | some kind =>
      rw [Particle.ofNode?, known] at dropped
      cases dropped
  | text | comment | instruction => rfl

mutual

/-- The nodes of what is kept of a tree stand for the kept elements of the tree. -/
theorem forall₂_nodes (outer : Xml.Scope) (following : List Xml.Node) (parent : Option Nat)
    (id : Nat) (root : Xml.Node) {particle : Particle}
    (kept : Particle.ofNode? outer following root = some particle) :
    List.Forall₂ (fun address node => Depicts root address node ∧
        Hangs 0 parent id (keptAddresses root) address node)
      (keptAddresses root) (Particle.nodes parent id particle) := by
  match root with
  | .element tag children =>
    rw [Particle.ofNode?] at kept
    split at kept
    · cases kept
    · rename_i kind known
      cases kept
      rw [keptAddresses_element known, Particle.nodes]
      refine .cons ⟨⟨tag, children, rfl, Label.records_ofTag known parent id _⟩,
        .inl ⟨rfl, rfl⟩⟩ ?_
      cases holds : kind.holdsText with
      | true => exact .nil
      | false =>
        refine (forall₂_nodesOfAll (outer.enter tag.declarations) id (id + 1) 0 children).imp ?_
        intro address node ⟨depicts, hangs⟩
        exact ⟨depicts.inside, hangs.inside parent⟩
  | .text _ | .comment _ | .instruction _ _ => cases kept

theorem forall₂_nodesOfAll (outer : Xml.Scope) (parent first index : Nat)
    (roots : List Xml.Node) :
    List.Forall₂ (fun address node => DepictsAmong index roots address node ∧
        Hangs 1 (some parent) first (keptAddressesOfAll index roots) address node)
      (keptAddressesOfAll index roots)
      (Particle.nodesOfAll parent first (Particle.ofNodes outer roots)) := by
  match roots with
  | [] => exact .nil
  | root :: later =>
    rw [keptAddressesOfAll, Particle.ofNodes]
    cases kept : Particle.ofNode? outer later root with
    | none =>
      rw [keptAddresses_of_not_kept kept]
      refine (forall₂_nodesOfAll outer parent first (index + 1) later).imp ?_
      intro address node ⟨depicts, hangs⟩
      exact ⟨depicts.behind, hangs⟩
    | some particle =>
      have here := forall₂_nodes outer later (some parent) first root kept
      have length := here.length_eq
      rw [Particle.length_nodes] at length
      have there := forall₂_nodesOfAll outer parent (first + particle.size) (index + 1) later
      rw [Option.toList_some, List.singleton_append, Particle.nodesOfAll]
      refine List.rel_append (List.forall₂_map_left_iff.2 (here.imp ?_)) (there.imp ?_)
      · intro address node ⟨depicts, hangs⟩
        exact ⟨⟨0, address, root, rfl, rfl, depicts⟩, (hangs.under index).append_right⟩
      · intro address node ⟨depicts, hangs⟩
        refine ⟨depicts.behind, Hangs.append_left ?_⟩
        rwa [List.length_map, length]

end

end RelaxDoc
