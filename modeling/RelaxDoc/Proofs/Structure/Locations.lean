import RelaxDoc.Proofs.Structure.Retagging

/-! The elements that the check looks at, by their addresses: all of a document in document order,
each with the name of the element around it and the path that leads to it. -/
namespace RelaxDoc

namespace Xml

mutual

/-- The addresses of the elements in a node, in document order. -/
def Node.elementAddresses : Node → List Address
  | .element _ children => [] :: elementAddressesOfAll 0 children
  | .text _ => []
  | .comment _ => []
  | .instruction _ _ => []

/-- The addresses of the elements in several nodes, the first of them at `index`. -/
def elementAddressesOfAll (index : Nat) : List Node → List Address
  | [] => []
  | node :: rest => node.elementAddresses.map (index :: ·) ++ elementAddressesOfAll (index + 1) rest

end

/-- The step to the element of a name at a position: with its number if there are several of this
name. -/
def stepAt (nodes : List Node) (index : Nat) (name : Name) : PathStep :=
  .among name.localName ((Site.elementNames (nodes.take index)).count name)
    ((Site.elementNames nodes).count name)

/-- The steps from a node to an element in it. -/
def Node.stepsTo : Node → Address → List PathStep
  | _, [] => []
  | node, index :: rest =>
    match node.children[index]? with
    | some child =>
      (child.tag?.map fun tag => stepAt node.children index tag.name).toList ++ child.stepsTo rest
    | none => []

/-- The name of the element around the node at an address; at the top it is `around`. -/
def Node.outerName? (around : Option Name) : Node → Address → Option Name
  | _, [] => around
  | node, index :: rest =>
    node.children[index]?.bind fun child => child.outerName? (node.tag?.map Tag.name) rest

/-- The location path of the element at an address. -/
def Document.locationPath (document : Document) (address : Address) : String :=
  pathText (⟨document.root.name.localName, none⟩ :: document.toNode.stepsTo address)

section Steps

variable {node : Node} {content : List Node} {tag : Tag} {index : Nat} {address : Address}

theorem Node.stepsTo_cons (here : node.children[index]? = some (.element tag content)) :
    node.stepsTo (index :: address) =
      stepAt node.children index tag.name :: (Node.element tag content).stepsTo address := by
  rw [stepsTo, here]
  rfl

/-- The way to an element begins with an element. -/
theorem Node.exists_first_of_at? (found : node.at? (index :: address) = some (.element tag content)) :
    ∃ outer inside, node.children[index]? = some (.element outer inside) ∧
      (Node.element outer inside).at? address = some (.element tag content) := by
  obtain ⟨child, here, below⟩ := Node.at?_cons.1 found
  cases child with
  | element outer inside => exact ⟨outer, inside, here, below⟩
  | text | comment | instruction =>
    cases address with
    | nil => cases below
    | cons first rest =>
      obtain ⟨_, none, _⟩ := Node.at?_cons.1 below
      cases none

end Steps

mutual

theorem Node.mem_elementAddresses {address : Address} (node : Node) :
    address ∈ node.elementAddresses ↔
      ∃ tag children, node.at? address = some (.element tag children) := by
  match node with
  | .element tag children =>
    cases address with
    | nil => exact ⟨fun _ => ⟨tag, children, rfl⟩, fun _ => List.mem_cons_self ..⟩
    | cons index rest =>
      have among : index :: rest ∈ elementAddressesOfAll 0 children ↔ _ :=
        mem_elementAddressesOfAll 0 children
      simp only [List.cons.injEq, Nat.zero_add] at among
      rw [Node.elementAddresses, List.mem_cons, or_iff_right (by simp), among]
      simp only [Node.at?_cons]
      constructor
      · rintro ⟨_, _, child, ⟨rfl, rfl⟩, found, inner, inside, below⟩
        exact ⟨inner, inside, child, found, below⟩
      · rintro ⟨inner, inside, child, found, below⟩
        exact ⟨index, rest, child, ⟨rfl, rfl⟩, found, inner, inside, below⟩
  | .text _ | .comment _ | .instruction _ _ =>
    refine ⟨fun member => absurd member (by simp [Node.elementAddresses]), ?_⟩
    rintro ⟨tag, children, found⟩
    cases address <;> cases found

theorem mem_elementAddressesOfAll {address : Address} (index : Nat) (nodes : List Node) :
    address ∈ elementAddressesOfAll index nodes ↔ ∃ offset rest node,
      address = (index + offset) :: rest ∧ nodes[offset]? = some node ∧
        ∃ tag children, node.at? rest = some (.element tag children) := by
  match nodes with
  | [] => simp [elementAddressesOfAll]
  | node :: later =>
    rw [elementAddressesOfAll, List.mem_append, mem_elementAddressesOfAll (index + 1) later,
      List.mem_map]
    constructor
    · rintro (⟨rest, member, rfl⟩ | ⟨offset, rest, inner, rfl, found, element⟩)
      · exact ⟨0, rest, node, rfl, rfl, (Node.mem_elementAddresses node).1 member⟩
      · exact ⟨offset + 1, rest, inner, by rw [Nat.add_right_comm, Nat.add_assoc], found, element⟩
    · rintro ⟨offset, rest, inner, rfl, found, element⟩
      cases offset with
      | zero =>
        cases found
        exact .inl ⟨rest, (Node.mem_elementAddresses node).2 element, rfl⟩
      | succ offset =>
        exact .inr ⟨offset, rest, inner, by rw [Nat.add_right_comm, Nat.add_assoc], found, element⟩

end

mutual

theorem Node.elementAddresses_sorted (node : Node) :
    node.elementAddresses.Pairwise (· < ·) := by
  match node with
  | .element tag children =>
    refine .cons (fun address member => ?_) (elementAddressesOfAll_sorted 0 children)
    obtain ⟨_, _, _, rfl, _⟩ := (mem_elementAddressesOfAll 0 children).1 member
    exact List.nil_lt_cons ..
  | .text _ | .comment _ | .instruction _ _ => exact .nil

theorem elementAddressesOfAll_sorted (index : Nat) (nodes : List Node) :
    (elementAddressesOfAll index nodes).Pairwise (· < ·) := by
  match nodes with
  | [] => exact .nil
  | node :: later =>
    rw [elementAddressesOfAll, List.pairwise_append]
    refine ⟨?_, elementAddressesOfAll_sorted (index + 1) later, fun one first other second => ?_⟩
    · refine List.pairwise_map.2 (node.elementAddresses_sorted.imp fun less => ?_)
      exact List.cons_lt_cons_iff.2 (.inr ⟨rfl, less⟩)
    · obtain ⟨rest, _, rfl⟩ := List.mem_map.1 first
      obtain ⟨offset, further, _, rfl, _⟩ := (mem_elementAddressesOfAll (index + 1) later).1 second
      exact List.cons_lt_cons_iff.2 (.inl (by omega))

end

end Xml

open Xml (Address)

namespace Site

/-- An element as it stands at an address of a tree, in which `around` is the name around the root
and `steps` lead to it. -/
structure Stands (root : Xml.Node) (around : Option Xml.Name) (steps : List PathStep)
    (address : Address) (site : Site) : Prop where
  found : root.at? address = some (.element site.tag site.children)
  parent : site.parent = root.outerName? around address
  path : site.steps = steps ++ root.stepsTo address

/-- An element as it stands at an address of one of several trees. -/
def StandsAmong (nodes : List Xml.Node) (around : Option Xml.Name) (steps : List PathStep)
    (address : Address) (site : Site) : Prop :=
  ∃ index rest root tag, address = index :: rest ∧ nodes[index]? = some root ∧
    root.tag? = some tag ∧ Stands root around (steps ++ [Xml.stepAt nodes index tag.name]) rest site

theorem StandsAmong.inside {tag : Xml.Tag} {children : List Xml.Node} {around : Option Xml.Name}
    {steps : List PathStep} {address : Address} {site : Site}
    (stands : StandsAmong children (some tag.name) steps address site) :
    Stands (.element tag children) around steps address site := by
  obtain ⟨index, rest, root, inner, rfl, here, named, stands⟩ := stands
  have child : (Xml.Node.element tag children).children[index]? = some root := here
  refine ⟨Xml.Node.at?_cons.2 ⟨root, child, stands.found⟩, ?_, ?_⟩
  · rw [stands.parent, Xml.Node.outerName?, child]
    rfl
  · rw [stands.path, Xml.Node.stepsTo, child]
    simp [named, Xml.Node.children]

mutual

/-- The elements of a node are looked at in document order, each as it stands at its address. -/
theorem forall₂_ofNode (around : Option Xml.Name) (steps : List PathStep) (node : Xml.Node) :
    List.Forall₂ (Stands node around steps) node.elementAddresses (ofNode around steps node) := by
  match node with
  | .element tag children =>
    rw [Xml.Node.elementAddresses, ofNode]
    refine .cons ⟨rfl, rfl, (List.append_nil _).symm⟩ ?_
    exact (forall₂_ofNodes (some tag.name) steps children [] children rfl).imp fun _ _ =>
      StandsAmong.inside
  | .text _ | .comment _ | .instruction _ _ => exact .nil

/-- So are those of the last of several nodes, which come behind the nodes of `front`. -/
theorem forall₂_ofNodes (around : Option Xml.Name) (steps : List PathStep)
    (whole front nodes : List Xml.Node) (split : whole = front ++ nodes) :
    List.Forall₂ (StandsAmong whole around steps) (Xml.elementAddressesOfAll front.length nodes)
      (ofNodes around steps (elementNames whole) (elementNames front) nodes) := by
  match nodes with
  | [] => exact .nil
  | node :: rest =>
    have later := forall₂_ofNodes around steps whole (front ++ [node]) rest (by simp [split])
    rw [List.length_append, List.length_singleton, elementNames_append] at later
    rw [Xml.elementAddressesOfAll, ofNodes]
    refine List.rel_append ?_ later
    have here : whole[front.length]? = some node := by simp [split]
    cases element : node.tag? with
    | none =>
      cases node with
      | element tag children => cases element
      | text | comment | instruction => exact .nil
    | some tag =>
      have step : stepTo tag.name (elementNames front) (elementNames whole) =
          Xml.stepAt whole front.length tag.name := by
        rw [stepTo, Xml.stepAt, split, List.take_left]
      simp only [step]
      exact List.forall₂_map_left_iff.2 ((forall₂_ofNode around _ node).imp
        fun address _ stands => ⟨front.length, address, node, tag, rfl, here, element, stands⟩)

end

end Site

end RelaxDoc
