import RelaxDoc.Grammar.Arena

/-! The numbering of element patterns in document order. -/
namespace RelaxDoc

/-- The element patterns of a grammar; the position of each is its id. -/
structure ElementIndex where
  nodes : List Nat
  deriving DecidableEq, Repr

namespace ElementIndex

/-- The element patterns of an arena. -/
def ofArena (a : Arena) : ElementIndex := ⟨a.ofKind .element⟩

/-- The id of an element pattern. -/
def idOf? (index : ElementIndex) (node : Nat) : Option Nat := index.nodes.idxOf? node

/-- The element pattern with an id. -/
def nodeOf? (index : ElementIndex) (id : Nat) : Option Nat := index.nodes[id]?

/-- The number of element patterns. -/
def size (index : ElementIndex) : Nat := index.nodes.length

/-- The ids with their element patterns, in order. -/
def entries (index : ElementIndex) : List (Nat × Nat) :=
  index.nodes.zipIdx.map fun (node, id) => (id, node)

end ElementIndex

end RelaxDoc
