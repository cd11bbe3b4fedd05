import RelaxDoc.Grammar.Kind
import RelaxDoc.Grammar.Prefixes

/-! The nodes of a grammar in document order. A node is known by its position; a parent
comes before its children, and children come in increasing order. -/
namespace RelaxDoc

/-- A node of a grammar. `remark` is the documentation right behind a value. -/
structure Node where
  kind : Kind
  attributes : List (String × String)
  text : Option String
  children : List Nat
  parent : Option Nat
  prefixes : Prefixes
  remark : Option Nat
  deriving DecidableEq, Repr

namespace Node

/-- The node that stands at positions where there is none. -/
def blank : Node := ⟨.empty, [], none, [], none, .empty, none⟩

/-- The value of an attribute. -/
def attribute? (node : Node) (name : String) : Option String := node.attributes.lookup name

/-- The value of the `name` attribute. -/
def name? (node : Node) : Option String := node.attribute? "name"

/-- The text of a node, empty if it holds none. -/
def content (node : Node) : String := node.text.getD ""

end Node

/-- The node at a position. -/
def nodeAt (nodes : Array Node) (id : Nat) : Node := nodes.getD id .blank

/-- Nodes in document order, the root first. -/
structure Arena where
  nodes : Array Node
  parent_lt : ∀ id parent, (nodeAt nodes id).parent = some parent → parent < id
  lt_child : ∀ id child, child ∈ (nodeAt nodes id).children → id < child
  child_lt : ∀ id child, child ∈ (nodeAt nodes id).children → child < nodes.size
  children_increase : ∀ id, (nodeAt nodes id).children.Pairwise (· < ·)

namespace Arena

/-- The root. -/
def root : Nat := 0

/-- The number of nodes. -/
def size (a : Arena) : Nat := a.nodes.size

/-- The node at a position. -/
def node (a : Arena) (id : Nat) : Node := nodeAt a.nodes id

/-- The kind of a node. -/
def kind (a : Arena) (id : Nat) : Kind := (a.node id).kind

/-- The parent of a node. -/
def parent? (a : Arena) (id : Nat) : Option Nat := (a.node id).parent

/-- The children of a node in document order. -/
def children (a : Arena) (id : Nat) : List Nat := (a.node id).children

/-- All positions in document order. -/
def ids (a : Arena) : List Nat := List.range a.size

/-- The nodes of one kind in document order. -/
def ofKind (a : Arena) (kind : Kind) : List Nat := a.ids.filter fun id => a.kind id = kind

theorem parent?_lt (a : Arena) {id parent : Nat} (found : a.parent? id = some parent) :
    parent < id := a.parent_lt id parent found

theorem lt_of_mem_children (a : Arena) {id child : Nat} (member : child ∈ a.children id) :
    id < child := a.lt_child id child member

theorem child_lt_size (a : Arena) {id child : Nat} (member : child ∈ a.children id) :
    child < a.size := a.child_lt id child member

theorem children_sorted (a : Arena) (id : Nat) : (a.children id).Pairwise (· < ·) :=
  a.children_increase id

theorem children_nodup (a : Arena) (id : Nat) : (a.children id).Nodup :=
  (a.children_sorted id).imp fun less => Nat.ne_of_lt less

/-- The ancestors of a node, the nearest first. -/
def ancestors (a : Arena) (id : Nat) : List Nat :=
  match found : a.parent? id with
  | none => []
  | some parent =>
    have := a.parent?_lt found
    parent :: a.ancestors parent
termination_by id

/-- The nearest ancestor of a kind. -/
def enclosing? (a : Arena) (id : Nat) (kind : Kind) : Option Nat :=
  (a.ancestors id).find? fun ancestor => a.kind ancestor = kind

/-- The name class that stands in for the `name` attribute of an element or attribute:
the first child that is no documentation. -/
def nameClass? (a : Arena) (id : Nat) : Option Nat :=
  if (a.kind id = .element ∨ a.kind id = .attr) ∧ (a.node id).name? = none then
    (a.children id).find? fun child => a.kind child ≠ .documentation
  else none

/-- The children of a node without its name class. -/
def contentChildren (a : Arena) (id : Nat) : List Nat :=
  (a.children id).filter fun child => a.nameClass? id ≠ some child

/-- The first documentation among the children of a node. -/
def documentation? (a : Arena) (id : Nat) : Option Nat :=
  (a.children id).find? fun child => a.kind child = .documentation

/-- The declarations of a node and of its ancestors, the node's own first. -/
def scopes (a : Arena) (id : Nat) : List Prefixes :=
  (id :: a.ancestors id).map fun node => (a.node node).prefixes

end Arena

end RelaxDoc
