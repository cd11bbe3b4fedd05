import RelaxDoc.Diagram.Basic
import Mathlib.Logic.ExistsUnique
import Mathlib.Logic.Relation

/-! Trees of drawn nodes. A diagram that is made from sketches has its nodes numbered from the root on,
each in front of what is below it, and is a tree. -/
namespace RelaxDoc

/-- A drawn node with what is drawn below it. -/
inductive Sketch where
  | node (drawn : DrawnNode) (below : List Sketch)

/-- A drawn node with the edge that ends in it. -/
abbrev PlacedNode := (Nat × Nat) × DrawnNode

namespace Sketch

mutual

/-- The number of nodes of a sketch. -/
def size : Sketch → Nat
  | .node _ below => 1 + sizes below

/-- The number of nodes of several sketches. -/
def sizes : List Sketch → Nat
  | [] => 0
  | sketch :: rest => sketch.size + sizes rest

end

mutual

/-- The nodes of a sketch below the node at the position `parent`, numbered from `next` on with each
node in front of what is below it. -/
def entries (parent next : Nat) : Sketch → List PlacedNode
  | .node drawn below => ((parent, next), drawn) :: entriesOf next (next + 1) below

/-- The nodes of several sketches below one node, the first sketch numbered first. -/
def entriesOf (parent next : Nat) : List Sketch → List PlacedNode
  | [] => []
  | sketch :: rest => sketch.entries parent next ++ entriesOf parent (next + sketch.size) rest

end

variable {parent next : Nat} {left right : List Sketch}

theorem sizes_append : sizes (left ++ right) = sizes left + sizes right := by
  induction left with
  | nil => simp [sizes]
  | cons sketch rest ih => simp [sizes, ih, Nat.add_assoc]

theorem entriesOf_append : entriesOf parent next (left ++ right) =
    entriesOf parent next left ++ entriesOf parent (next + sizes left) right := by
  induction left generalizing next with
  | nil => rfl
  | cons sketch rest ih =>
    rw [List.cons_append, entriesOf, ih, entriesOf, sizes, List.append_assoc, Nat.add_assoc]

end Sketch

/-- The diagram of a root with sketches below it. -/
def Diagram.ofSketches (root : DrawnNode) (below : List Sketch) : Diagram where
  nodes := root :: (Sketch.entriesOf 0 1 below).map Prod.snd
  edges := (Sketch.entriesOf 0 1 below).map Prod.fst
  root := 0

/-- The node at a position is there and is no reference. -/
def IsSolid (nodes : List DrawnNode) (position : Nat) : Prop :=
  ∃ node, nodes[position]? = some node ∧ node.reference = false

theorem IsSolid.append {nodes : List DrawnNode} {position : Nat} (solid : IsSolid nodes position)
    (more : List DrawnNode) : IsSolid (nodes ++ more) position := by
  obtain ⟨node, found, plain⟩ := solid
  obtain ⟨inside, _⟩ := List.getElem?_eq_some_iff.1 found
  exact ⟨node, (List.getElem?_append_left inside).trans found, plain⟩

theorem IsSolid.lt {nodes : List DrawnNode} {position : Nat} (solid : IsSolid nodes position) :
    position < nodes.length := by
  obtain ⟨node, found, _⟩ := solid
  exact (List.getElem?_eq_some_iff.1 found).1

namespace Diagram

variable {diagram : Diagram}

/-- A tree whose root comes first and whose nodes come each after the one above it: the edges end in
the nodes behind the root, in their order. -/
structure IsTree (diagram : Diagram) : Prop where
  root : diagram.root = 0
  length : diagram.edges.length + 1 = diagram.nodes.length
  edge : ∀ index edge, diagram.edges[index]? = some edge → edge.2 = index + 1 ∧ edge.1 < edge.2

/-- An edge of a diagram. -/
def Edge (diagram : Diagram) (parent child : Nat) : Prop := (parent, child) ∈ diagram.edges

namespace IsTree

variable {child : Nat}

theorem exists_edge (tree : diagram.IsTree) (behind : 0 < child)
    (inside : child < diagram.nodes.length) :
    ∃ parent, diagram.edges[child - 1]? = some (parent, child) ∧ parent < child := by
  have length := tree.length
  have found := List.getElem?_eq_getElem (l := diagram.edges) (i := child - 1) (by omega)
  obtain ⟨ends, starts⟩ := tree.edge _ _ found
  have same : diagram.edges[child - 1] = (diagram.edges[child - 1].1, child) :=
    Prod.ext rfl (by omega)
  exact ⟨diagram.edges[child - 1].1, by rw [found, ← same], by omega⟩

/-- Every node behind the root has one node above it. -/
theorem existsUnique_parent (tree : diagram.IsTree) (behind : 0 < child)
    (inside : child < diagram.nodes.length) : ∃! parent, diagram.Edge parent child := by
  obtain ⟨parent, found, _⟩ := tree.exists_edge behind inside
  refine ⟨parent, List.mem_of_getElem? found, fun other member => ?_⟩
  obtain ⟨index, there⟩ := List.getElem?_of_mem member
  have ends : child = index + 1 := (tree.edge index _ there).1
  rw [ends, Nat.add_sub_cancel, there] at found
  exact congrArg Prod.fst (Option.some.inj found)

/-- Every node is reached from the root. -/
theorem reached (tree : diagram.IsTree) (inside : child < diagram.nodes.length) :
    Relation.ReflTransGen diagram.Edge diagram.root child := by
  induction child using Nat.strongRecOn with
  | ind child ih =>
    rw [tree.root] at ih ⊢
    rcases Nat.eq_zero_or_pos child with rfl | behind
    · exact .refl
    · obtain ⟨parent, found, less⟩ := tree.exists_edge behind inside
      exact (ih parent less (Nat.lt_trans less inside)).tail (List.mem_of_getElem? found)

end IsTree

end Diagram

end RelaxDoc
