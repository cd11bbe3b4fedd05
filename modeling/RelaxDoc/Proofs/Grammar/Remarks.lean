import RelaxDoc.Proofs.Grammar.Spans

/-! Remarks: the node noted as the remark of a value stands right behind it, in the same parent, and
is documentation. -/
namespace RelaxDoc.Particle

variable {first id inner remark : Nat} {item : Node}

mutual

/-- In a particle every value that is remarked has documentation behind it. -/
def Followed : Particle → Prop
  | mk _ children => FollowedAll children

/-- Every particle that is remarked has none in it, and the next one is documentation. -/
def FollowedAll : List Particle → Prop
  | [] => True
  | particle :: rest =>
    (particle.label.remarked = true → particle.children = [] ∧
      ∃ next later, rest = next :: later ∧ next.label.kind = .documentation) ∧
    Followed particle ∧ FollowedAll rest

end

/-- The first element among nodes is kept first if it is documentation. -/
theorem ofNodes_of_firstTag {tag : Xml.Tag} {kind : Kind} (outer : Xml.Scope)
    {nodes : List Xml.Node} (next : Xml.firstTag? nodes = some tag)
    (known : Kind.ofName? tag.name = some kind) :
    ∃ particle later, ofNodes outer nodes = particle :: later ∧ particle.label.kind = kind := by
  induction nodes with
  | nil => cases next
  | cons node rest ih =>
    rw [ofNodes]
    cases node with
    | element other children =>
      cases next
      rw [ofNode?, known]
      exact ⟨_, _, rfl, rfl⟩
    | text | comment | instruction => exact ih next

theorem remarked_ofTag {outer : Xml.Scope} {following : List Xml.Node} {kind : Kind}
    {tag : Xml.Tag} {children : List Xml.Node}
    (remarked : (Label.ofTag outer following kind tag children).remarked = true) :
    kind = .value ∧ ∃ next, Xml.firstTag? following = some next ∧
      Kind.ofName? next.name = some .documentation := by
  simpa [Label.ofTag, Option.any_eq_true] using remarked

mutual

theorem followed_ofNode? (outer : Xml.Scope) (following : List Xml.Node) (node : Xml.Node)
    {particle : Particle} (kept : ofNode? outer following node = some particle) :
    particle.Followed ∧ (particle.label.remarked = true → particle.children = [] ∧
      ∃ next, Xml.firstTag? following = some next ∧
        Kind.ofName? next.name = some .documentation) := by
  match node with
  | .element tag children =>
    rw [ofNode?] at kept
    split at kept
    · cases kept
    · rename_i kind known
      cases kept
      refine ⟨?_, fun remarked => ?_⟩
      · rw [Followed]
        split
        · exact trivial
        · exact followedAll_ofNodes _ children
      · obtain ⟨rfl, next⟩ := remarked_ofTag remarked
        exact ⟨rfl, next⟩
  | .text _ | .comment _ | .instruction _ _ => cases kept

theorem followedAll_ofNodes (outer : Xml.Scope) (nodes : List Xml.Node) :
    FollowedAll (ofNodes outer nodes) := by
  match nodes with
  | [] => exact trivial
  | node :: rest =>
    have behind := followedAll_ofNodes outer rest
    rw [ofNodes]
    cases kept : ofNode? outer rest node with
    | none => exact behind
    | some particle =>
      obtain ⟨followed, remark⟩ := followed_ofNode? outer rest node kept
      refine ⟨fun remarked => ?_, followed, behind⟩
      obtain ⟨empty, tag, next, known⟩ := remark remarked
      exact ⟨empty, ofNodes_of_firstTag outer next known⟩

end

/-- A node that is the remark of another: documentation right behind it in the same parent. -/
def Remarks (first : Nat) (nodes : List Node) (remark inner : Nat) (item : Node) : Prop :=
  remark = inner + 1 ∧ ∃ below, StandsAt first nodes remark below ∧
    below.kind = .documentation ∧ below.parent = item.parent

theorem Remarks.append_right {left right : List Node}
    (remarks : Remarks first left remark inner item) :
    Remarks first (left ++ right) remark inner item := by
  obtain ⟨next, below, stands, documentation, siblings⟩ := remarks
  exact ⟨next, below, standsAt_append.2 (.inl stands), documentation, siblings⟩

theorem Remarks.append_left {left right : List Node}
    (remarks : Remarks (first + left.length) right remark inner item) :
    Remarks first (left ++ right) remark inner item := by
  obtain ⟨next, below, stands, documentation, siblings⟩ := remarks
  exact ⟨next, below, standsAt_append.2 (.inr stands), documentation, siblings⟩

theorem remark_node {parent : Option Nat} {particle : Particle}
    (named : (node parent id particle).remark = some remark) :
    particle.label.remarked = true ∧ remark = id + 1 := by
  rw [node] at named
  split at named
  · rename_i remarked
    exact ⟨remarked, (Option.some.inj named).symm⟩
  · cases named

theorem standsAt_top (parent : Option Nat) (id : Nat) (particle : Particle) :
    StandsAt id (nodes parent id particle) id (node parent id particle) := by
  cases particle with
  | mk label children =>
    rw [nodes]
    exact .head _

mutual

theorem nodes_remark (parent : Option Nat) (id : Nat) (particle : Particle)
    (followed : particle.Followed) (stands : StandsAt id (nodes parent id particle) inner item)
    (named : item.remark = some remark) :
    (inner = id ∧ item = node parent id particle ∧ particle.label.remarked = true) ∨
      Remarks id (nodes parent id particle) remark inner item := by
  match particle with
  | mk label children =>
    rw [nodes] at stands ⊢
    rcases standsAt_cons.1 stands with ⟨rfl, rfl⟩ | deeper
    · exact .inl ⟨rfl, rfl, (remark_node named).1⟩
    · obtain ⟨next, below, further, documentation, siblings⟩ :=
        nodesOfAll_remark id (id + 1) children followed deeper named
      exact .inr ⟨next, below, further.cons _, documentation, siblings⟩

theorem nodesOfAll_remark (parent first : Nat) (particles : List Particle)
    (followed : FollowedAll particles)
    (stands : StandsAt first (nodesOfAll parent first particles) inner item)
    (named : item.remark = some remark) :
    Remarks first (nodesOfAll parent first particles) remark inner item := by
  match particles with
  | [] => obtain ⟨offset, _, found⟩ := stands; simp [nodesOfAll] at found
  | particle :: rest =>
    obtain ⟨next, here, behind⟩ := followed
    rw [nodesOfAll] at stands ⊢
    rcases standsAt_append.1 stands with before | later
    · rcases nodes_remark (some parent) first particle here before named with
        ⟨rfl, rfl, remarked⟩ | remarks
      · obtain ⟨empty, following, further, rfl, documentation⟩ := next remarked
        have same := (remark_node named).2
        refine ⟨same, node (some parent) (inner + 1) following, ?_, documentation, rfl⟩
        have one : particle.size = 1 := by
          cases particle with
          | mk label children => rw [size, show children = [] from empty, sizes]
        rw [standsAt_append, length_nodes, one, same, nodesOfAll]
        exact .inr (standsAt_append.2 (.inl (standsAt_top (some parent) (inner + 1) following)))
      · exact remarks.append_right
    · rw [length_nodes] at later
      refine Remarks.append_left ?_
      rw [length_nodes]
      exact nodesOfAll_remark parent _ rest behind later named

end

end RelaxDoc.Particle
