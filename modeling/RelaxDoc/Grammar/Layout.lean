import RelaxDoc.Grammar.Definitions
import RelaxDoc.Grammar.Particle

/-! The nodes of a particle fill consecutive positions in document order, so they make
an arena. -/
namespace RelaxDoc.Particle

mutual

theorem length_nodes (parent : Option Nat) (id : Nat) (particle : Particle) :
    (nodes parent id particle).length = particle.size := by
  match particle with
  | mk label children => rw [nodes, size, List.length_cons, length_nodesOfAll]

theorem length_nodesOfAll (parent first : Nat) (particles : List Particle) :
    (nodesOfAll parent first particles).length = sizes particles := by
  match particles with
  | [] => rfl
  | particle :: rest =>
    rw [nodesOfAll, sizes, List.length_append, length_nodes, length_nodesOfAll]

end

theorem size_pos (particle : Particle) : 0 < particle.size := by
  cases particle; rw [size]; omega

theorem position_bounds {first id : Nat} {particles : List Particle}
    (member : id ∈ positions first particles) : first ≤ id ∧ id < first + sizes particles := by
  induction particles generalizing first with
  | nil => simp [positions] at member
  | cons particle rest ih =>
    have := particle.size_pos
    rw [sizes]
    rcases List.mem_cons.1 member with rfl | further
    · omega
    · have := ih further; omega

theorem positions_sorted (first : Nat) (particles : List Particle) :
    (positions first particles).Pairwise (· < ·) := by
  induction particles generalizing first with
  | nil => exact .nil
  | cons particle rest ih =>
    have := particle.size_pos
    refine .cons (fun id member => ?_) (ih _)
    have := position_bounds member
    omega

/-- What holds of the node at `id` among nodes that fill the positions up to `stop`: its
parent comes before it, and its children behind it in increasing order. -/
structure Placed (stop id : Nat) (node : Node) : Prop where
  parent_lt : ∀ parent, node.parent = some parent → parent < id
  lt_child : ∀ child ∈ node.children, id < child
  child_lt : ∀ child ∈ node.children, child < stop
  sorted : node.children.Pairwise (· < ·)

/-- Nodes that are each placed well, the first of them at `id`. -/
def AllPlaced (stop : Nat) (id : Nat) : List Node → Prop
  | [] => True
  | node :: rest => Placed stop id node ∧ AllPlaced stop (id + 1) rest

theorem AllPlaced.append {stop id : Nat} {left right : List Node}
    (l : AllPlaced stop id left) (r : AllPlaced stop (id + left.length) right) :
    AllPlaced stop id (left ++ right) := by
  induction left generalizing id with
  | nil => simpa using r
  | cons node rest ih =>
    refine ⟨l.1, ih l.2 ?_⟩
    simpa [Nat.add_comm, Nat.add_left_comm] using r

mutual

theorem nodes_placed (stop : Nat) (parent : Option Nat) (id : Nat)
    (particle : Particle) (outer : ∀ p, parent = some p → p < id)
    (room : id + particle.size ≤ stop) :
    AllPlaced stop id (nodes parent id particle) := by
  match particle with
  | mk label children =>
    rw [size] at room
    rw [nodes]
    refine ⟨⟨outer, fun child member => ?_, fun child member => ?_, positions_sorted _ _⟩,
      nodesOfAll_placed stop id (id + 1) children (by omega) (by omega)⟩
    · have := position_bounds member; omega
    · have : child ∈ positions (id + 1) children := member
      have := position_bounds this
      omega

theorem nodesOfAll_placed (stop parent here : Nat) (particles : List Particle)
    (before : parent < here) (room : here + sizes particles ≤ stop) :
    AllPlaced stop here (nodesOfAll parent here particles) := by
  match particles with
  | [] => exact trivial
  | particle :: rest =>
    rw [sizes] at room
    have := particle.size_pos
    rw [nodesOfAll]
    refine .append (nodes_placed stop (some parent) here particle ?_ (by omega)) ?_
    · intro p same
      cases same
      exact before
    · rw [length_nodes]
      exact nodesOfAll_placed stop parent _ rest (by omega) (by omega)

end

theorem AllPlaced.getElem? {stop id : Nat} {list : List Node}
    (all : AllPlaced stop id list) {index : Nat} {node : Node}
    (found : list[index]? = some node) : Placed stop (id + index) node := by
  induction list generalizing id index with
  | nil => simp at found
  | cons head rest ih =>
    cases index with
    | zero =>
      rw [List.getElem?_cons_zero] at found
      cases found
      exact all.1
    | succ index =>
      have := ih all.2 (by simpa using found)
      simpa [Nat.add_comm, Nat.add_left_comm] using this

theorem nodeAt_eq (list : List Node) (id : Nat) :
    nodeAt list.toArray id = (list[id]?).getD .blank := by
  simp [nodeAt, Array.getD_eq_getD_getElem?]

theorem placed_nodeAt (particle : Particle) (id : Nat) :
    Placed particle.size id (nodeAt (nodes none 0 particle).toArray id) := by
  rw [nodeAt_eq]
  cases found : (nodes none 0 particle)[id]? with
  | none =>
    refine ⟨?_, ?_, ?_, ?_⟩ <;> simp [Node.blank]
  | some node =>
    have all := nodes_placed particle.size none 0 particle (by simp) (by omega)
    simpa using all.getElem? found

/-- The arena of a particle. -/
def arena (particle : Particle) : Arena where
  nodes := (nodes none 0 particle).toArray
  parent_lt := fun id => (placed_nodeAt particle id).parent_lt
  lt_child := fun id => (placed_nodeAt particle id).lt_child
  child_lt := fun id child member => by
    simpa [length_nodes] using (placed_nodeAt particle id).child_lt child member
  children_increase := fun id => (placed_nodeAt particle id).sorted

/-- The grammar of a particle. -/
def grammar (particle : Particle) : Grammar := .ofArena particle.arena

end RelaxDoc.Particle
