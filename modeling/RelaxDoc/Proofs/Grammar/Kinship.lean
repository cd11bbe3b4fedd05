import RelaxDoc.Grammar.Build

/-! Parents and children of a loaded grammar say the same: a node is among the children of
another exactly if that one is its parent. -/
namespace RelaxDoc

namespace Particle

/-- `node` stands at position `id` in nodes that fill the positions from `first` on. -/
def StandsAt (first : Nat) (nodes : List Node) (id : Nat) (node : Node) : Prop :=
  ∃ offset, id = first + offset ∧ nodes[offset]? = some node

variable {first id inner outer : Nat} {parent : Option Nat} {item : Node}

theorem StandsAt.head (nodes : List Node) : StandsAt first (item :: nodes) first item :=
  ⟨0, rfl, rfl⟩

theorem StandsAt.cons {nodes : List Node} (head : Node)
    (stands : StandsAt (first + 1) nodes id item) : StandsAt first (head :: nodes) id item := by
  obtain ⟨offset, same, found⟩ := stands
  exact ⟨offset + 1, by omega, by simpa using found⟩

theorem standsAt_cons {nodes : List Node} {head : Node} :
    StandsAt first (head :: nodes) id item ↔
      (id = first ∧ item = head) ∨ StandsAt (first + 1) nodes id item := by
  constructor
  · intro ⟨offset, same, found⟩
    cases offset with
    | zero => exact .inl ⟨same, by simpa using found.symm⟩
    | succ offset => exact .inr ⟨offset, by omega, by simpa using found⟩
  · rintro (⟨same, rfl⟩ | later)
    · exact same ▸ .head nodes
    · exact later.cons head

theorem standsAt_append {left right : List Node} :
    StandsAt first (left ++ right) id item ↔
      StandsAt first left id item ∨ StandsAt (first + left.length) right id item := by
  induction left generalizing first with
  | nil => simp [StandsAt]
  | cons head rest ih =>
    have shift : first + (head :: rest).length = first + 1 + rest.length := by
      rw [List.length_cons]; omega
    rw [List.cons_append, standsAt_cons, standsAt_cons, ih, shift, or_assoc]

/-- Every one of the positions of several particles holds a node with their parent. -/
theorem nodesOfAll_top (parent : Nat) {particles : List Particle}
    (member : id ∈ positions first particles) :
    ∃ below, StandsAt first (nodesOfAll parent first particles) id below ∧
      below.parent = some parent := by
  induction particles generalizing first with
  | nil => simp [positions] at member
  | cons particle rest ih =>
    rw [nodesOfAll]
    rcases List.mem_cons.1 member with same | further
    · refine ⟨node (some parent) first particle, standsAt_append.2 (.inl ?_), rfl⟩
      cases particle with
      | mk label children => rw [same, nodes]; exact .head _
    · obtain ⟨below, stands, named⟩ := ih further
      refine ⟨below, standsAt_append.2 (.inr ?_), named⟩
      rw [length_nodes]
      exact stands

mutual

theorem nodes_child (parent : Option Nat) (id : Nat) (particle : Particle)
    (stands : StandsAt id (nodes parent id particle) outer item)
    (member : inner ∈ item.children) :
    ∃ below, StandsAt id (nodes parent id particle) inner below ∧ below.parent = some outer := by
  match particle with
  | mk label children =>
    rw [nodes] at stands ⊢
    rcases standsAt_cons.1 stands with ⟨rfl, rfl⟩ | deeper
    · obtain ⟨below, found, named⟩ := nodesOfAll_top outer member
      exact ⟨below, found.cons _, named⟩
    · obtain ⟨below, found, named⟩ := nodesOfAll_child id (id + 1) children deeper member
      exact ⟨below, found.cons _, named⟩

theorem nodesOfAll_child (parent first : Nat) (particles : List Particle)
    (stands : StandsAt first (nodesOfAll parent first particles) outer item)
    (member : inner ∈ item.children) :
    ∃ below, StandsAt first (nodesOfAll parent first particles) inner below ∧
      below.parent = some outer := by
  match particles with
  | [] => obtain ⟨offset, _, found⟩ := stands; simp [nodesOfAll] at found
  | particle :: rest =>
    rw [nodesOfAll] at stands ⊢
    rcases standsAt_append.1 stands with here | later
    · obtain ⟨below, found, named⟩ := nodes_child (some parent) first particle here member
      exact ⟨below, standsAt_append.2 (.inl found), named⟩
    · rw [length_nodes] at later
      obtain ⟨below, found, named⟩ := nodesOfAll_child parent _ rest later member
      exact ⟨below, standsAt_append.2 (.inr (by rwa [length_nodes])), named⟩

end

mutual

theorem nodes_parent (parent : Option Nat) (id : Nat) (particle : Particle)
    (stands : StandsAt id (nodes parent id particle) inner item)
    (named : item.parent = some outer) :
    (inner = id ∧ parent = some outer) ∨
      ∃ above, StandsAt id (nodes parent id particle) outer above ∧ inner ∈ above.children := by
  match particle with
  | mk label children =>
    rw [nodes] at stands ⊢
    rcases standsAt_cons.1 stands with ⟨rfl, rfl⟩ | deeper
    · exact .inl ⟨rfl, named⟩
    · right
      rcases nodesOfAll_parent id (id + 1) children deeper named with ⟨rfl, top⟩ | further
      · exact ⟨_, .head _, top⟩
      · obtain ⟨above, found, member⟩ := further
        exact ⟨above, found.cons _, member⟩

theorem nodesOfAll_parent (parent first : Nat) (particles : List Particle)
    (stands : StandsAt first (nodesOfAll parent first particles) inner item)
    (named : item.parent = some outer) :
    (outer = parent ∧ inner ∈ positions first particles) ∨
      ∃ above, StandsAt first (nodesOfAll parent first particles) outer above ∧
        inner ∈ above.children := by
  match particles with
  | [] => obtain ⟨offset, _, found⟩ := stands; simp [nodesOfAll] at found
  | particle :: rest =>
    rw [nodesOfAll] at stands ⊢
    rcases standsAt_append.1 stands with here | later
    · rcases nodes_parent (some parent) first particle here named with ⟨rfl, same⟩ | further
      · exact .inl ⟨(Option.some.inj same).symm, List.mem_cons_self ..⟩
      · obtain ⟨above, found, member⟩ := further
        exact .inr ⟨above, standsAt_append.2 (.inl found), member⟩
    · rw [length_nodes] at later
      rcases nodesOfAll_parent parent _ rest later named with ⟨same, top⟩ | further
      · exact .inl ⟨same, List.mem_cons_of_mem _ top⟩
      · obtain ⟨above, found, member⟩ := further
        exact .inr ⟨above, standsAt_append.2 (.inr (by rwa [length_nodes])), member⟩

end

/-- Where there is no node, a look-up gives one without children and without a parent. -/
theorem standsAt_node (particle : Particle) (id : Nat) :
    particle.arena.node id = .blank ∨
      StandsAt 0 (nodes none 0 particle) id (particle.arena.node id) := by
  change nodeAt (nodes none 0 particle).toArray id = .blank ∨
    StandsAt 0 (nodes none 0 particle) id (nodeAt (nodes none 0 particle).toArray id)
  rw [nodeAt_eq]
  cases found : (nodes none 0 particle)[id]? with
  | none => exact .inl rfl
  | some node => exact .inr ⟨id, by omega, found⟩

theorem StandsAt.node_eq {particle : Particle}
    (stands : StandsAt 0 (nodes none 0 particle) id item) : particle.arena.node id = item := by
  obtain ⟨offset, same, found⟩ := stands
  have here : (nodes none 0 particle)[id]? = some item := by rw [same, Nat.zero_add]; exact found
  change nodeAt (nodes none 0 particle).toArray id = item
  rw [nodeAt_eq, here, Option.getD_some]

/-- A node is a child of another exactly if that one is its parent. -/
theorem mem_children_iff (particle : Particle) (inner outer : Nat) :
    inner ∈ particle.arena.children outer ↔ particle.arena.parent? inner = some outer := by
  constructor
  · intro member
    rcases particle.standsAt_node outer with blank | stands
    · rw [Arena.children, blank] at member
      exact absurd member List.not_mem_nil
    · obtain ⟨below, found, named⟩ := nodes_child none 0 particle stands member
      rw [Arena.parent?, found.node_eq]
      exact named
  · intro named
    rcases particle.standsAt_node inner with blank | stands
    · rw [Arena.parent?, blank] at named
      exact absurd named nofun
    · rcases nodes_parent none 0 particle stands named with ⟨_, none⟩ | ⟨above, found, member⟩
      · exact absurd none nofun
      · rw [Arena.children, found.node_eq]
        exact member

end Particle

namespace Grammar

/-- A grammar that a document is read as within some limits. -/
def Loaded (g : Grammar) : Prop := ∃ limits document, ofDocument limits document = .ok g

variable {g : Grammar}

/-- A document within the limits is read as the grammar of what is kept of it. -/
theorem ofDocument_eq_ok_iff {limits : Limits} {document : Xml.Document} :
    ofDocument limits document = .ok g ↔ checkRoot document = .ok () ∧
      limits.checkVisits 0 (Visit.ofNode 1 document.toNode) = .ok () ∧
      ∃ particle, Particle.ofNode? [] [] document.toNode = some particle ∧
        particle.grammar = g := by
  rw [ofDocument, rootParticle]
  cases checkRoot document with
  | error e => simp [bind, Except.bind]
  | ok _ =>
    cases Particle.ofNode? [] [] document.toNode with
    | none => simp [bind, Except.bind, throw, throwThe, MonadExceptOf.throw]
    | some particle =>
      cases limits.checkVisits 0 (Visit.ofNode 1 document.toNode) with
      | error e => simp [bind, Except.bind, pure, Except.pure]
      | ok _ => simp [bind, Except.bind, pure, Except.pure]

/-- A loaded grammar is that of the particle of its document. -/
theorem Loaded.exists_particle (loaded : g.Loaded) : ∃ particle, g = Particle.grammar particle := by
  obtain ⟨limits, document, read⟩ := loaded
  obtain ⟨_, _, particle, _, same⟩ := ofDocument_eq_ok_iff.1 read
  exact ⟨particle, same.symm⟩

theorem Loaded.mem_children_iff (loaded : g.Loaded) {inner outer : Nat} :
    inner ∈ g.children outer ↔ g.parent? inner = some outer := by
  obtain ⟨particle, rfl⟩ := loaded.exists_particle
  exact particle.mem_children_iff inner outer

theorem Loaded.not_mem_children_of_orphan (loaded : g.Loaded) {id : Nat}
    (orphan : g.parent? id = none) (outer : Nat) : id ∉ g.children outer := by
  intro member
  have parent := loaded.mem_children_iff.1 member
  rw [orphan] at parent
  cases parent

/-- The ancestors of a node are its parent and the ancestors of that one. -/
theorem ancestors_of_parent {id outer : Nat} (above : g.parent? id = some outer) :
    g.ancestors id = outer :: g.ancestors outer := by
  rw [Arena.ancestors]
  split
  · rename_i none
    rw [above] at none
    cases none
  · rename_i parent same
    rw [above] at same
    cases same
    rfl

theorem ancestors_of_orphan {id : Nat} (orphan : g.parent? id = none) : g.ancestors id = [] := by
  rw [Arena.ancestors]
  split
  · rfl
  · rename_i above
    rw [orphan] at above
    cases above

theorem lt_of_mem_ancestors {id inner : Nat} (above : id ∈ g.ancestors inner) : id < inner := by
  induction inner using Nat.strongRecOn with
  | ind inner ih =>
    cases parent : g.parent? inner with
    | none =>
      rw [ancestors_of_orphan parent] at above
      cases above
    | some outer =>
      have lower := g.parent?_lt parent
      rw [ancestors_of_parent parent] at above
      rcases List.mem_cons.1 above with rfl | further
      · exact lower
      · exact Nat.lt_trans (ih outer lower further) lower

/-- Of two nodes around another one stands around the other. -/
theorem ancestors_total {id one other : Nat} (first : one ∈ g.ancestors id)
    (second : other ∈ g.ancestors id) :
    one = other ∨ one ∈ g.ancestors other ∨ other ∈ g.ancestors one := by
  induction id using Nat.strongRecOn with
  | ind id ih =>
    cases above : g.parent? id with
    | none =>
      rw [ancestors_of_orphan above] at first
      cases first
    | some outer =>
      rw [ancestors_of_parent above] at first second
      rcases List.mem_cons.1 first with rfl | first
      · rcases List.mem_cons.1 second with rfl | second
        · exact .inl rfl
        · exact .inr (.inr second)
      · rcases List.mem_cons.1 second with rfl | second
        · exact .inr (.inl first)
        · exact ih outer (g.parent?_lt above) first second

/-- The grammar of what is kept of a document. -/
def ofKept (document : Xml.Document)
    (kept : (Particle.ofNode? [] [] document.toNode).isSome = true) : Grammar :=
  ((Particle.ofNode? [] [] document.toNode).get kept).grammar

theorem loaded_ofKept {document : Xml.Document}
    (kept : (Particle.ofNode? [] [] document.toNode).isSome = true)
    (root : checkRoot document = .ok ())
    (admitted : Limits.standard.checkVisits 0 (Visit.ofNode 1 document.toNode) = .ok ()) :
    (ofKept document kept).Loaded := by
  obtain ⟨particle, found⟩ := Option.isSome_iff_exists.1 kept
  have read : rootParticle document = .ok particle := by
    rw [rootParticle, root, found]
    rfl
  refine ⟨.standard, document, ?_⟩
  rw [ofDocument, read, admitted, ofKept, Option.get_of_eq_some kept found]
  rfl

end Grammar

/-- A pattern with at most a name. -/
def Xml.Node.pattern (kind : Kind) (name : Option String) (children : List Xml.Node) : Xml.Node :=
  .element ⟨⟨some Namespace.structural, kind.tag⟩,
    name.toList.map fun name => ⟨⟨none, "name"⟩, name⟩, []⟩ children

/-- The document of a grammar with some content. -/
def Xml.Document.ofContent (children : List Xml.Node) : Xml.Document :=
  ⟨⟨⟨some Namespace.structural, Kind.grammar.tag⟩, [], []⟩, children⟩

end RelaxDoc
