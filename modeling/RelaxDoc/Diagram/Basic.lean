import RelaxDoc.Diagram.Style
import RelaxDoc.Error

/-! Diagrams of content models, and how much of a content model they show. -/
namespace RelaxDoc

/-- A drawn node. A reference stands for a definition that is drawn elsewhere. -/
structure DrawnNode where
  kind : Kind
  label : String
  reference : Bool
  deriving DecidableEq, Repr

/-- The look of a drawn node. -/
def DrawnNode.style (node : DrawnNode) : NodeStyle :=
  if node.reference then .reference else node.kind.style

/-- A diagram: nodes, edges between their positions, and the position of the root. -/
structure Diagram where
  nodes : List DrawnNode
  edges : List (Nat × Nat)
  root : Nat
  deriving DecidableEq, Repr

/-- The labels of a diagram. -/
def Diagram.labels (diagram : Diagram) : List String := diagram.nodes.map DrawnNode.label

/-- How much a diagram shows: elements and attributes alone, or every pattern. -/
inductive Detail where
  | simple
  | full
  deriving DecidableEq, Repr

namespace Detail

/-- The name of a level of detail. -/
def name : Detail → String
  | .simple => "simple"
  | .full => "full"

/-- The level of detail with a name. -/
def ofName (name : String) : Except Error Detail :=
  if name = "simple" then .ok .simple
  else if name = "full" then .ok .full
  else .error (.invocation s!"unknown diagram mode '{name}', expected 'full' or 'simple'")

/-- Whether nodes of a kind are drawn themselves, and not only what is below them. -/
def draws : Detail → Kind → Bool
  | .simple, kind => kind = .element || kind = .attr
  | .full, kind => !(kind = .grammar || kind = .start || kind = .define || kind = .inclusion)

end Detail

end RelaxDoc
