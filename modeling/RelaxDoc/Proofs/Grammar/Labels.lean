import RelaxDoc.Proofs.Grammar.Addresses

/-! What the nodes of a grammar say, by the addresses of their elements. An element says the same
wherever it stands, but for the declarations around it and, if it is a value, what comes behind. -/
namespace RelaxDoc

open Xml (Address Scope)

/-- What the element at an address of a node inside `outer` and in front of `following` says. -/
def Xml.Node.labelAt? : Scope → List Xml.Node → Address → Xml.Node → Option Label
  | outer, following, [], .element tag children =>
    (Kind.ofName? tag.name).map fun kind => .ofTag outer following kind tag children
  | outer, _, index :: rest, .element tag children =>
    children[index]?.bind
      (labelAt? (outer.enter tag.declarations) (children.drop (index + 1)) rest)
  | _, _, _, _ => none

/-- A label without what comes behind its element. -/
def Label.unremarked (label : Label) : Label := { label with remarked := false }

namespace Xml.Node

variable {outer : Scope} {following other : List Node} {node : Node}

/-- What comes behind a node makes no difference to the elements in it. -/
theorem labelAt?_cons (step : Nat) (rest : Address) :
    node.labelAt? outer following (step :: rest) = node.labelAt? outer other (step :: rest) := by
  cases node <;> rfl

theorem unremarked_labelAt? (address : Address) :
    (node.labelAt? outer following address).map Label.unremarked =
      (node.labelAt? outer other address).map Label.unremarked := by
  cases address with
  | nil =>
    cases node with
    | element tag children =>
      unfold labelAt?
      cases Kind.ofName? tag.name <;> rfl
    | text | comment | instruction => rfl
  | cons step rest => rw [labelAt?_cons]

end Xml.Node

/-- A node says what a label says. -/
structure Node.Tells (node : Node) (label : Label) : Prop where
  kind : node.kind = label.kind
  attributes : node.attributes = label.attributes
  text : node.text = label.text
  prefixes : node.prefixes = label.prefixes
  remark : node.remark.isSome = label.remarked

theorem Particle.tells_node (parent : Option Nat) (id : Nat) (particle : Particle) :
    (node parent id particle).Tells particle.label where
  kind := rfl
  attributes := rfl
  text := rfl
  prefixes := rfl
  remark := by
    unfold node
    cases particle.label.remarked <;> rfl

/-- A node says what is said at an address of a tree inside `outer` and in front of `following`. -/
def Quotes (outer : Scope) (following : List Xml.Node) (root : Xml.Node) (address : Address)
    (node : Node) : Prop :=
  ∃ label, root.labelAt? outer following address = some label ∧ node.Tells label

/-- A node says what is said at an address of one of several trees inside `outer`. -/
def QuotesAmong (outer : Scope) (index : Nat) (roots : List Xml.Node) (address : Address)
    (node : Node) : Prop :=
  ∃ offset rest root, address = (index + offset) :: rest ∧ roots[offset]? = some root ∧
    Quotes outer (roots.drop (offset + 1)) root rest node

theorem QuotesAmong.inside {outer : Scope} {tag : Xml.Tag} {children following : List Xml.Node}
    {address : Address} {node : Node}
    (quotes : QuotesAmong (outer.enter tag.declarations) 0 children address node) :
    Quotes outer following (.element tag children) address node := by
  obtain ⟨offset, rest, child, rfl, found, label, below, tells⟩ := quotes
  refine ⟨label, ?_, tells⟩
  rw [Nat.zero_add, Xml.Node.labelAt?, found]
  exact below

theorem QuotesAmong.behind {outer : Scope} {index : Nat} {root : Xml.Node} {roots : List Xml.Node}
    {address : Address} {node : Node} (quotes : QuotesAmong outer (index + 1) roots address node) :
    QuotesAmong outer index (root :: roots) address node := by
  obtain ⟨offset, rest, child, rfl, found, below⟩ := quotes
  exact ⟨offset + 1, rest, child, by rw [Nat.add_right_comm, Nat.add_assoc], found, below⟩

mutual

/-- The nodes of what is kept of a tree say one by one what its kept elements say. -/
theorem forall₂_quotes (outer : Scope) (following : List Xml.Node) (parent : Option Nat) (id : Nat)
    (root : Xml.Node) {particle : Particle}
    (kept : Particle.ofNode? outer following root = some particle) :
    List.Forall₂ (Quotes outer following root) (keptAddresses root)
      (Particle.nodes parent id particle) := by
  match root with
  | .element tag children =>
    rw [Particle.ofNode?] at kept
    split at kept
    · cases kept
    · rename_i kind known
      cases kept
      rw [keptAddresses_element known, Particle.nodes]
      refine .cons ⟨.ofTag outer following kind tag children, ?_, Particle.tells_node ..⟩ ?_
      · rw [Xml.Node.labelAt?, known]
        rfl
      · cases holds : kind.holdsText with
        | true => exact .nil
        | false =>
          have inside :=
            forall₂_quotesAmong (outer.enter tag.declarations) id (id + 1) 0 children
          exact inside.imp fun _ _ quotes => quotes.inside
  | .text _ | .comment _ | .instruction _ _ => cases kept

theorem forall₂_quotesAmong (outer : Scope) (parent first index : Nat) (roots : List Xml.Node) :
    List.Forall₂ (QuotesAmong outer index roots) (keptAddressesOfAll index roots)
      (Particle.nodesOfAll parent first (Particle.ofNodes outer roots)) := by
  match roots with
  | [] => exact .nil
  | root :: later =>
    rw [keptAddressesOfAll, Particle.ofNodes]
    cases kept : Particle.ofNode? outer later root with
    | none =>
      rw [keptAddresses_of_not_kept kept]
      have there := forall₂_quotesAmong outer parent first (index + 1) later
      exact there.imp fun _ _ quotes => quotes.behind
    | some particle =>
      have here := forall₂_quotes outer later (some parent) first root kept
      have there := forall₂_quotesAmong outer parent (first + particle.size) (index + 1) later
      rw [Option.toList_some, List.singleton_append, Particle.nodesOfAll]
      refine List.rel_append (List.forall₂_map_left_iff.2 (here.imp ?_))
        (there.imp fun _ _ quotes => quotes.behind)
      exact fun address node quotes => ⟨0, address, root, rfl, rfl, quotes⟩

end

/-- Beyond its size a grammar has blank nodes. -/
theorem Grammar.node_of_size_le {g : Grammar} {id : Nat} (beyond : g.size ≤ id) :
    g.node id = .blank := by
  rw [Arena.node, nodeAt, Array.getD_eq_getD_getElem?, Array.getElem?_eq_none beyond]
  rfl

/-- The remark of a value stands right behind it, in the same parent. -/
theorem Grammar.remark_of_read {g : Grammar} {limits : Limits} {document : Xml.Document}
    (read : ofDocument limits document = .ok g) {id remark : Nat}
    (named : (g.node id).remark = some remark) :
    remark = id + 1 ∧ g.parent? remark = g.parent? id := by
  obtain ⟨_, _, particle, kept, rfl⟩ := ofDocument_eq_ok_iff.1 read
  have filled : particle.arena.node id ≠ .blank := by
    intro blank
    have none : (particle.grammar.node id).remark = .none := congrArg Node.remark blank
    rw [named] at none
    cases none
  obtain ⟨followed, last⟩ := Particle.followed_ofNode? [] [] document.toNode kept
  have stands := (lt_size_of_node particle filled).2
  rcases Particle.nodes_remark none 0 particle followed stands named with
    ⟨_, _, remarked⟩ | ⟨behind, below, further, _, siblings⟩
  · -- Nothing comes behind the root.
    obtain ⟨_, next, behind, _⟩ := last remarked
    cases behind
  · have same : particle.arena.node remark = below := further.node_eq
    exact ⟨behind, (congrArg Node.parent same).trans siblings⟩

/-- Every node of a grammar that is read from a document says what is said at its address. -/
theorem Grammar.quotes_of_read {g : Grammar} {limits : Limits} {document : Xml.Document}
    (read : ofDocument limits document = .ok g) {id : Nat} {address : Address}
    (found : (keptAddresses document.toNode)[id]? = some address) :
    Quotes [] [] document.toNode address (g.node id) := by
  obtain ⟨_, _, particle, kept, rfl⟩ := ofDocument_eq_ok_iff.1 read
  have paired := forall₂_quotes [] [] none 0 document.toNode kept
  obtain ⟨inside, same⟩ := List.getElem?_eq_some_iff.1 found
  have within : id < (Particle.nodes none 0 particle).length := paired.length_eq ▸ inside
  have stands : Particle.StandsAt 0 (Particle.nodes none 0 particle) id
      (Particle.nodes none 0 particle)[id] :=
    ⟨id, (Nat.zero_add id).symm, List.getElem?_eq_getElem within⟩
  have pair := paired.get inside within
  rw [List.get_eq_getElem, List.get_eq_getElem, same, ← stands.node_eq] at pair
  exact pair

end RelaxDoc
