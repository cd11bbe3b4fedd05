import RelaxDoc.Proofs.Grammar.Keys
import RelaxDoc.Proofs.Grammar.Kinship

/-! Document order and descent. The root is the only node without a parent, and what stands below
a node fills the positions right behind it. -/
namespace RelaxDoc

namespace Particle

variable {first id inner outer : Nat} {parent : Option Nat} {item : Node}

theorem StandsAt.bounds {nodes : List Node} (stands : StandsAt first nodes id item) :
    first ≤ id ∧ id < first + nodes.length := by
  obtain ⟨offset, same, found⟩ := stands
  have := (List.getElem?_eq_some_iff.1 found).1
  omega

mutual

/-- The nodes of a particle have their parents among them, except for the first of them. -/
theorem nodes_parent_within (parent : Option Nat) (id : Nat) (particle : Particle)
    (stands : StandsAt id (nodes parent id particle) inner item) :
    (inner = id ∧ item.parent = parent) ∨
      ∃ outer, item.parent = some outer ∧ id ≤ outer ∧ outer < inner := by
  match particle with
  | mk label children =>
    rw [nodes] at stands
    rcases standsAt_cons.1 stands with ⟨rfl, rfl⟩ | deeper
    · exact .inl ⟨rfl, rfl⟩
    · have lower := deeper.bounds.1
      obtain ⟨outer, named, from_, before⟩ :=
        nodesOfAll_parent_within id (id + 1) children (by omega) deeper
      exact .inr ⟨outer, named, by omega, before⟩

/-- The nodes of several particles have their parents among them, or are below the one parent. -/
theorem nodesOfAll_parent_within (parent first : Nat) (particles : List Particle)
    (before : parent < first) (stands : StandsAt first (nodesOfAll parent first particles) inner item) :
    ∃ outer, item.parent = some outer ∧ (outer = parent ∨ first ≤ outer) ∧ outer < inner := by
  match particles with
  | [] => obtain ⟨offset, _, found⟩ := stands; simp [nodesOfAll] at found
  | particle :: rest =>
    rw [nodesOfAll] at stands
    rcases standsAt_append.1 stands with here | later
    · have lower := here.bounds.1
      rcases nodes_parent_within (some parent) first particle here with ⟨rfl, named⟩ | further
      · exact ⟨parent, named, .inl rfl, before⟩
      · obtain ⟨outer, named, from_, less⟩ := further
        exact ⟨outer, named, .inr from_, less⟩
    · rw [length_nodes] at later
      obtain ⟨outer, named, from_, less⟩ :=
        nodesOfAll_parent_within parent _ rest (by omega) later
      exact ⟨outer, named, by omega, less⟩

end

/-- From `id` up to `stop` there stand `id` and what is below it, among the given nodes. -/
def Spans (first : Nat) (nodes : List Node) (id stop : Nat) : Prop :=
  ∀ inner item outer, StandsAt first nodes inner item → item.parent = some outer →
    ((id < inner ∧ inner < stop) ↔ (id ≤ outer ∧ outer < stop))

mutual

theorem exists_spans_nodes (parent : Option Nat) (first : Nat) (particle : Particle)
    (outside : ∀ p, parent = some p → p < first) (lower : first ≤ id)
    (upper : id < first + particle.size) : ∃ stop, id < stop ∧ stop ≤ first + particle.size ∧
      Spans first (nodes parent first particle) id stop := by
  match particle with
  | mk label children =>
    rw [size] at upper ⊢
    rcases Nat.eq_or_lt_of_le lower with rfl | deeper
    · refine ⟨first + (sizes children + 1), by omega, by omega, ?_⟩
      intro inner item outer stands named
      have bounds := stands.bounds
      rw [length_nodes, size] at bounds
      rcases nodes_parent_within parent first _ stands with ⟨rfl, same⟩ | ⟨p, same, from_, less⟩
      · have before := outside outer (same ▸ named)
        omega
      · rw [named] at same
        cases same
        omega
    · obtain ⟨stop, after, room, spans⟩ :=
        exists_spans_nodesOfAll first (first + 1) children (by omega) deeper (by omega)
      refine ⟨stop, after, by omega, ?_⟩
      intro inner item outer stands named
      rw [nodes] at stands
      rcases standsAt_cons.1 stands with ⟨rfl, rfl⟩ | within
      · have before := outside outer named
        omega
      · exact spans inner item outer within named

theorem exists_spans_nodesOfAll (parent first : Nat) (particles : List Particle)
    (outside : parent < first) (lower : first ≤ id) (upper : id < first + sizes particles) :
    ∃ stop, id < stop ∧ stop ≤ first + sizes particles ∧
      Spans first (nodesOfAll parent first particles) id stop := by
  match particles with
  | [] => rw [sizes] at upper; omega
  | particle :: rest =>
    rw [sizes] at upper ⊢
    -- The particle that `id` is in decides where it ends; the nodes of others are outside.
    rcases Nat.lt_or_ge id (first + particle.size) with here | later
    · obtain ⟨stop, after, room, spans⟩ :=
        exists_spans_nodes (some parent) first particle (by simp; omega) lower here
      refine ⟨stop, after, by omega, ?_⟩
      intro inner item outer stands named
      rw [nodesOfAll] at stands
      rcases standsAt_append.1 stands with within | beyond
      · exact spans inner item outer within named
      · rw [length_nodes] at beyond
        have bounds := beyond.bounds
        obtain ⟨p, same, from_, less⟩ :=
          nodesOfAll_parent_within parent _ rest (by omega) beyond
        rw [named] at same
        cases same
        omega
    · obtain ⟨stop, after, room, spans⟩ :=
        exists_spans_nodesOfAll parent (first + particle.size) rest (by omega) later (by omega)
      refine ⟨stop, after, by omega, ?_⟩
      intro inner item outer stands named
      rw [nodesOfAll] at stands
      rcases standsAt_append.1 stands with before | within
      · have bounds := before.bounds
        rw [length_nodes] at bounds
        rcases nodes_parent_within (some parent) first particle before with
          ⟨rfl, same⟩ | ⟨p, same, from_, less⟩
        · rw [named] at same
          cases same
          omega
        · rw [named] at same
          cases same
          omega
      · rw [length_nodes] at within
        exact spans inner item outer within named

end

theorem standsAt_of_parent (particle : Particle) (above : particle.arena.parent? id = some outer) :
    StandsAt 0 (nodes none 0 particle) id (particle.arena.node id) := by
  rcases particle.standsAt_node id with blank | stands
  · rw [Arena.parent?, blank] at above
    cases above
  · exact stands

theorem size_arena (particle : Particle) : particle.arena.size = particle.size :=
  length_nodes none 0 particle

theorem standsAt_of_lt (particle : Particle) (inside : id < particle.size) :
    StandsAt 0 (nodes none 0 particle) id (particle.arena.node id) := by
  rw [← length_nodes none 0 particle] at inside
  have stands : StandsAt 0 (nodes none 0 particle) id (nodes none 0 particle)[id] :=
    ⟨id, by omega, List.getElem?_eq_getElem inside⟩
  exact stands.node_eq ▸ stands

end Particle

namespace Grammar

variable {g : Grammar} {id outer inner stop : Nat}

/-- What stands below a node fills the positions behind it up to `stop`. -/
structure Spans (g : Grammar) (id stop : Nat) : Prop where
  lt : id < stop
  le_size : stop ≤ g.size
  iff : ∀ inner outer, g.parent? inner = some outer →
    ((id < inner ∧ inner < stop) ↔ (id ≤ outer ∧ outer < stop))

theorem Loaded.exists_spans (loaded : g.Loaded) (inside : id < g.size) :
    ∃ stop, g.Spans id stop := by
  obtain ⟨particle, rfl⟩ := loaded.exists_particle
  have size : particle.grammar.size = particle.size := particle.size_arena
  obtain ⟨stop, after, room, spans⟩ :=
    Particle.exists_spans_nodes none 0 particle nofun (Nat.zero_le id) (by omega)
  refine ⟨stop, after, by omega, ?_⟩
  intro inner outer above
  exact spans inner _ outer (particle.standsAt_of_parent above) above

/-- The root is the only node without a parent. -/
theorem Loaded.parent?_eq_none_iff (loaded : g.Loaded) (inside : id < g.size) :
    g.parent? id = none ↔ id = 0 := by
  obtain ⟨particle, rfl⟩ := loaded.exists_particle
  have stands := particle.standsAt_of_lt (particle.size_arena ▸ inside)
  have named : particle.grammar.parent? id = (particle.arena.node id).parent := rfl
  rw [named]
  constructor
  · intro orphan
    rcases Particle.nodes_parent_within none 0 particle stands with ⟨same, _⟩ | ⟨outer, above, _⟩
    · exact same
    · rw [orphan] at above
      cases above
  · intro first
    rcases Particle.nodes_parent_within none 0 particle stands with ⟨_, orphan⟩ | ⟨outer, _, _, less⟩
    · exact orphan
    · omega

/-- Above a node stands another exactly if the node is in the span of that one. -/
theorem Spans.mem_ancestors_iff (spans : g.Spans id stop) (loaded : g.Loaded) :
    id ∈ g.ancestors inner ↔ id < inner ∧ inner < stop := by
  induction inner using Nat.strongRecOn with
  | ind inner ih =>
    cases above : g.parent? inner with
    | none =>
      rw [ancestors_of_orphan above]
      refine ⟨nofun, fun ⟨after, before⟩ => ?_⟩
      have inside := Nat.lt_of_lt_of_le before spans.le_size
      have := (loaded.parent?_eq_none_iff inside).1 above
      omega
    | some outer =>
      rw [ancestors_of_parent above, List.mem_cons, ih outer (g.parent?_lt above),
        spans.iff inner outer above]
      have := spans.lt
      omega

/-- A node stands above what is at or below one of its children. -/
theorem Loaded.mem_ancestors_of_child (loaded : g.Loaded) {child : Nat}
    (member : child ∈ g.children outer) (here : child = inner ∨ child ∈ g.ancestors inner) :
    outer ∈ g.ancestors inner := by
  have parent := loaded.mem_children_iff.1 member
  induction inner using Nat.strongRecOn with
  | ind inner ih =>
    rcases here with rfl | above
    · rw [ancestors_of_parent parent]
      exact List.mem_cons_self ..
    · cases next : g.parent? inner with
      | none =>
        rw [ancestors_of_orphan next] at above
        cases above
      | some further =>
        rw [ancestors_of_parent next] at above ⊢
        exact List.mem_cons_of_mem _ (ih further (g.parent?_lt next) (List.mem_cons.1 above))

/-- What stands below a node comes before the later siblings of the node. -/
theorem Loaded.lt_of_sibling (loaded : g.Loaded) {sibling : Nat} (child : id ∈ g.children outer)
    (also : sibling ∈ g.children outer) (later : id < sibling) (above : id ∈ g.ancestors inner) :
    inner < sibling := by
  obtain ⟨stop, spans⟩ := loaded.exists_spans (g.child_lt_size child)
  have inside := ((spans.mem_ancestors_iff loaded).1 above).2
  have apart := spans.iff sibling outer (loaded.mem_children_iff.1 also)
  have before := g.lt_of_mem_children child
  omega

/-- A node is among the children of its parent once, and in no other list of children. -/
theorem Loaded.count_children (loaded : g.Loaded) (id outer : Nat) :
    (g.children outer).count id = if g.parent? id = some outer then 1 else 0 := by
  rw [(g.children_nodup outer).count]
  simp only [loaded.mem_children_iff]

end Grammar

end RelaxDoc
