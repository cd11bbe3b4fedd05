import RelaxDoc.Proofs.Diagram.Labels
import RelaxDoc.Proofs.Diagram.Simple
import RelaxDoc.Proofs.Diagram.Trees

/-! Drawings as recursion. A diagram is a tree that is drawn from left to right, what is below a
node before what is behind it, and its nodes are numbered as they are drawn. -/
namespace RelaxDoc

/-- The nodes that strokes draw, each with its edge, numbered from `next` on. -/
def Stroke.entries (next : Nat) (strokes : List Stroke) : List PlacedNode :=
  ((strokes.filterMap Stroke.drawn?).zipIdx next).map fun ((parent, drawn), index) =>
    ((parent, index), drawn)

/-- The kinds that are not drawn themselves: in a simple diagram all but elements and attributes, in a
full one those that stand around definitions. -/
def Detail.Hides : Detail → Kind → Prop
  | .simple, kind => kind ∉ [.element, .attr]
  | .full, kind => kind ∈ [.grammar, .start, .define, .inclusion]

theorem Detail.hides_iff {detail : Detail} {kind : Kind} :
    detail.Hides kind ↔ detail.draws kind = false := by
  cases detail <;> cases kind <;> simp [Hides, draws]

namespace Grammar

/-- Drawing nodes from left to right with the keys in `visited` expanded makes sketches, and has
`after` expanded at the end. -/
inductive Sketches (g : Grammar) (detail : Detail) : (pending : List Nat) →
    (visited : List DefineKey) → (drawn : List Sketch) → (after : List DefineKey) → Prop where
  | done : Sketches g detail [] visited [] visited
  /-- Documentation and references without a name are passed. -/
  | pass {id : Nat} (idle : g.kind id = .documentation ∨
        (g.kind id).isReference = true ∧ g.defineKey? id = none)
      (rest : Sketches g detail pending visited drawn after) :
      Sketches g detail (id :: pending) visited drawn after
  /-- A reference by a key that was met before is drawn as such, with nothing below it. -/
  | again {id : Nat} (refers : (g.kind id).isReference = true)
      (named : g.defineKey? id = some key) (old : key ∈ visited)
      (rest : Sketches g detail pending visited drawn after) :
      Sketches g detail (id :: pending) visited
        (.node ⟨g.kind id, key.name, true⟩ [] :: drawn) after
  /-- A reference by a new key gives way to the children of its definitions. -/
  | expand {id : Nat} {inner : List Sketch} (refers : (g.kind id).isReference = true)
      (named : g.defineKey? id = some key) (fresh : key ∉ visited)
      (within : Sketches g detail ((g.definesOf key).flatMap g.children) (key :: visited) inner
        between)
      (rest : Sketches g detail pending between drawn after) :
      Sketches g detail (id :: pending) visited (inner ++ drawn) after
  /-- A node that is not drawn itself gives way to its children. -/
  | collapse {id : Nat} {inner : List Sketch} (other : g.kind id ≠ .documentation)
      (plain : (g.kind id).isReference = false) (hidden : detail.Hides (g.kind id))
      (within : Sketches g detail (g.children id) visited inner between)
      (rest : Sketches g detail pending between drawn after) :
      Sketches g detail (id :: pending) visited (inner ++ drawn) after
  /-- A simple diagram has elements and attributes with nothing below them. -/
  | stop {id : Nat} {label : String} (simple : detail = .simple)
      (shown : g.kind id = .element ∨ g.kind id = .attr) (labelled : g.HasLabel id label)
      (rest : Sketches g detail pending visited drawn after) :
      Sketches g detail (id :: pending) visited (.node ⟨g.kind id, label, false⟩ [] :: drawn) after
  /-- A full diagram has patterns with their bodies drawn below them. -/
  | enter {id : Nat} {label : String} {content : List Nat} (full : detail = .full)
      (shown : g.kind id ∉ [.documentation, .ref, .parentRef, .grammar, .start, .define, .inclusion])
      (labelled : g.HasLabel id label) (body : g.HasBody id content)
      (within : Sketches g detail content visited below between)
      (rest : Sketches g detail pending between drawn after) :
      Sketches g detail (id :: pending) visited
        (.node ⟨g.kind id, label, false⟩ below :: drawn) after

/-- The keys that count as expanded before the diagram of a node is drawn: that of the nearest
definition around the node, if there is one with a name. -/
inductive StartsWith (g : Grammar) (id : Nat) : List DefineKey → Prop where
  | around {define : Nat} {key : DefineKey} (around : g.enclosing? id .define = some define)
    (named : g.defineKey? define = some key) : StartsWith g id [key]
  | nothing (unnamed : ∀ define, g.enclosing? id .define = some define →
      g.defineKey? define = none) : StartsWith g id []

/-- A node is drawn with its name, and with sketches of its body below it. -/
structure DrawnAs (g : Grammar) (detail : Detail) (id : Nat) (name : String) (below : List Sketch)
    (before after : List DefineKey) : Prop where
  named : g.GoesBy id name
  starts : g.StartsWith id before
  sketches : ∃ content, g.HasBody id content ∧ g.Sketches detail content before below after

variable {g : Grammar} {detail : Detail} {pending : List Nat} {visited after : List DefineKey}
  {id parent next : Nat} {node : DrawnNode} {key : DefineKey} {strokes : List Stroke}

theorem entries_draw :
    Stroke.entries next (.draw parent id node :: strokes) =
      ((parent, next), node) :: Stroke.entries (next + 1) strokes := rfl

theorem entries_notice : Stroke.entries next (g.notice key ++ strokes) =
    Stroke.entries next strokes := by
  unfold Stroke.entries
  rw [List.filterMap_append, filterMap_notice _ fun _ => rfl, List.nil_append]

theorem entries_end {index : Nat} {entry : PlacedNode}
    (found : (Stroke.entries next strokes)[index]? = some entry) : entry.1.2 = next + index := by
  unfold Stroke.entries at found
  rw [List.getElem?_map, List.getElem?_zipIdx] at found
  obtain ⟨stroke, there, rfl⟩ := Option.map_eq_some_iff.1 found
  obtain ⟨_, _, rfl⟩ := Option.map_eq_some_iff.1 there
  rfl

/-- A node that is drawn below a solid one, in front of further nodes each below a solid one. -/
theorem entries_draw_solid {front : List DrawnNode} (length : front.length = next)
    (solid : IsSolid front parent)
    (later : ∀ entry ∈ Stroke.entries (next + 1) strokes, entry.1.1 < entry.1.2 ∧
      IsSolid (front ++ [node] ++ (Stroke.entries (next + 1) strokes).map Prod.snd) entry.1.1) :
    ∀ entry ∈ Stroke.entries next (.draw parent id node :: strokes), entry.1.1 < entry.1.2 ∧
      IsSolid (front ++ (Stroke.entries next (.draw parent id node :: strokes)).map Prod.snd)
        entry.1.1 := by
  rw [entries_draw, List.map_cons]
  refine List.forall_mem_cons.2 ⟨⟨length ▸ solid.lt, solid.append _⟩, fun entry member => ?_⟩
  have further := later entry member
  rwa [List.append_assoc, List.singleton_append] at further

theorem diagram_eq (g : Grammar) (detail : Detail) (id : Nat) : g.diagram detail id =
    ⟨⟨.element, g.elementName id, false⟩ ::
        (Stroke.entries 1 (g.elementStrokes detail id)).map Prod.snd,
      (Stroke.entries 1 (g.elementStrokes detail id)).map Prod.fst, 0⟩ := by
  have ends (strokes : List (Nat × DrawnNode)) :
      strokes.zipIdx 1 = strokes.zipIdx.map fun placed => (placed.1, placed.2 + 1) :=
    List.zipIdx_succ ..
  simp only [diagram, Stroke.entries, ends, List.map_map, Diagram.mk.injEq, List.cons.injEq,
    true_and, and_true]
  constructor
  · conv_lhs => rw [← List.zipIdx_map_fst 0 ((g.elementStrokes detail id).filterMap Stroke.drawn?)]
    rw [List.map_map]
    rfl
  · rfl

namespace Sketches

variable {left right : List Nat} {drawn : List Sketch}

/-- Nodes in a row are drawn one part after the other. -/
theorem exists_of_append (sketches : g.Sketches detail (left ++ right) visited drawn after) :
    ∃ first between second, g.Sketches detail left visited first between ∧
      g.Sketches detail right between second after ∧ drawn = first ++ second := by
  induction left generalizing visited drawn with
  | nil => exact ⟨[], visited, drawn, .done, sketches, rfl⟩
  | cons id later ih =>
    cases sketches with
    | pass idle rest =>
      obtain ⟨first, between, second, here, there, rfl⟩ := ih rest
      exact ⟨first, between, second, .pass idle here, there, rfl⟩
    | again refers named old rest =>
      obtain ⟨first, between, second, here, there, rfl⟩ := ih rest
      exact ⟨_, between, second, .again refers named old here, there, rfl⟩
    | expand refers named fresh within rest =>
      obtain ⟨first, between, second, here, there, rfl⟩ := ih rest
      exact ⟨_, between, second, .expand refers named fresh within here, there,
        (List.append_assoc ..).symm⟩
    | collapse other plain hidden within rest =>
      obtain ⟨first, between, second, here, there, rfl⟩ := ih rest
      exact ⟨_, between, second, .collapse other plain hidden within here, there,
        (List.append_assoc ..).symm⟩
    | stop simple shown labelled rest =>
      obtain ⟨first, between, second, here, there, rfl⟩ := ih rest
      exact ⟨_, between, second, .stop simple shown labelled here, there, rfl⟩
    | enter full shown labelled body within rest =>
      obtain ⟨first, between, second, here, there, rfl⟩ := ih rest
      exact ⟨_, between, second, .enter full shown labelled body within here, there, rfl⟩

/-- The keys that are expanded on the way are new ones, each expanded once. -/
theorem expanded (sketches : g.Sketches detail pending visited drawn after)
    (once : visited.Nodup) : after.Nodup ∧ visited <:+ after := by
  induction sketches with
  | done => exact ⟨once, List.suffix_refl _⟩
  | pass _ _ ih | again _ _ _ _ ih | stop _ _ _ _ ih => exact ih once
  | expand _ _ fresh _ _ ihWithin ihRest =>
    obtain ⟨inside, first⟩ := ihWithin (List.nodup_cons.2 ⟨fresh, once⟩)
    obtain ⟨outside, second⟩ := ihRest inside
    exact ⟨outside, (List.suffix_cons ..).trans (first.trans second)⟩
  | collapse _ _ _ _ _ ihWithin ihRest | enter _ _ _ _ _ _ ihWithin ihRest =>
    obtain ⟨inside, first⟩ := ihWithin once
    obtain ⟨outside, second⟩ := ihRest inside
    exact ⟨outside, first.trans second⟩

/-- A node that is drawn itself has its label, and below it what its level of detail asks for. -/
theorem draw {below : List Sketch} {between : List DefineKey} (other : g.kind id ≠ .documentation)
    (plain : (g.kind id).isReference = false) (shown : detail.draws (g.kind id) = true)
    (within : g.Sketches detail (g.drawnContent detail id) visited below between)
    (rest : g.Sketches detail pending between drawn after) :
    g.Sketches detail (id :: pending) visited (.node (g.drawnNode id) below :: drawn) after := by
  cases detail with
  | simple =>
    cases within
    have boundary := draws_simple_iff.1 shown
    refine .stop rfl boundary (hasLabel_drawnLabel ?_ other plain) rest
    rcases boundary with kind | kind <;> simp [kind]
  | full =>
    have gathers : g.kind id ∉ [.grammar, .start, .define, .inclusion] := by
      simpa [Detail.draws, and_assoc] using shown
    refine .enter rfl ?_ (hasLabel_drawnLabel gathers other plain) (hasBody_iff.2 rfl) within rest
    cases kind : g.kind id <;> simp_all [Kind.isReference]

end Sketches

/-- A drawing that keeps what is pending on a stack goes through the same nodes as the recursion. -/
theorem Drawing.exists_sketches {pending : List (Nat × Nat)}
    (drawing : g.Drawing detail pending visited next strokes) :
    ∃ drawn after, g.Sketches detail (pending.map Prod.fst) visited drawn after := by
  induction drawing with
  | done => exact ⟨_, _, .done⟩
  | pass idle _ ih =>
    obtain ⟨drawn, after, sketches⟩ := ih
    exact ⟨_, after, .pass idle sketches⟩
  | again refers named old _ ih =>
    obtain ⟨drawn, after, sketches⟩ := ih
    exact ⟨_, after, .again refers named old sketches⟩
  | expand refers named fresh _ ih =>
    obtain ⟨drawn, after, sketches⟩ := ih
    rw [List.map_append, fst_attach] at sketches
    obtain ⟨inner, between, behind, within, rest, _⟩ := sketches.exists_of_append
    exact ⟨_, after, .expand refers named fresh within rest⟩
  | collapse other plain hidden _ ih =>
    obtain ⟨drawn, after, sketches⟩ := ih
    rw [List.map_append, fst_attach] at sketches
    obtain ⟨inner, between, behind, within, rest, _⟩ := sketches.exists_of_append
    exact ⟨_, after, .collapse other plain (Detail.hides_iff.2 hidden) within rest⟩
  | draw other plain shown _ ih =>
    obtain ⟨drawn, after, sketches⟩ := ih
    rw [List.map_append, fst_attach] at sketches
    obtain ⟨inner, between, behind, within, rest, _⟩ := sketches.exists_of_append
    exact ⟨_, after, .draw other plain shown within rest⟩

section Strokes

variable {label : String} {content : List Nat} {later : List (Nat × Nat)}

theorem strokes_stop (shown : g.kind id = .element ∨ g.kind id = .attr)
    (labelled : g.HasLabel id label) :
    g.strokes .simple ((id, parent) :: later) visited next =
      .draw parent id ⟨g.kind id, label, false⟩ :: g.strokes .simple later visited (next + 1) := by
  have plain : g.kind id ≠ .documentation ∧ (g.kind id).isReference = false := by
    rcases shown with kind | kind <;> rw [kind] <;> decide
  obtain rfl := labelled.eq_drawnLabel
  exact strokes_draw plain.1 plain.2 (draws_simple_iff.2 shown)

theorem strokes_enter
    (shown : g.kind id ∉ [.documentation, .ref, .parentRef, .grammar, .start, .define, .inclusion])
    (labelled : g.HasLabel id label) (body : g.HasBody id content) :
    g.strokes .full ((id, parent) :: later) visited next =
      .draw parent id ⟨g.kind id, label, false⟩ ::
        g.strokes .full (content.map (·, next) ++ later) visited (next + 1) := by
  have plain : g.kind id ≠ .documentation ∧ (g.kind id).isReference = false ∧
      Detail.full.draws (g.kind id) = true := by
    revert shown
    cases g.kind id <;> decide
  obtain rfl := labelled.eq_drawnLabel
  obtain rfl := hasBody_iff.1 body
  exact strokes_draw plain.1 plain.2.1 plain.2.2

end Strokes

/-- The strokes for pending nodes draw what the recursion draws, and go on behind it with the same
keys expanded and the next free number. -/
theorem Sketches.entries_strokes {drawn : List Sketch}
    (sketches : g.Sketches detail pending visited drawn after) (parent next : Nat)
    (later : List (Nat × Nat)) :
    Stroke.entries next (g.strokes detail (pending.map (·, parent) ++ later) visited next) =
      Sketch.entriesOf parent next drawn ++ Stroke.entries (next + Sketch.sizes drawn)
        (g.strokes detail later after (next + Sketch.sizes drawn)) := by
  induction sketches generalizing parent next later with
  | done => rfl
  | pass idle _ ih =>
    rw [List.map_cons, List.cons_append, strokes_pass idle]
    exact ih parent next later
  | again refers named old _ ih =>
    rw [List.map_cons, List.cons_append, strokes_again refers named old, entries_draw, ih]
    simp only [Sketch.entriesOf, Sketch.entries, Sketch.sizes, Sketch.size, List.cons_append,
      List.nil_append, Nat.add_zero, Nat.add_assoc]
  | expand refers named fresh _ _ ihWithin ihRest =>
    rw [List.map_cons, List.cons_append, strokes_expand refers named fresh, entries_notice,
      expansion, ihWithin, ihRest, Sketch.entriesOf_append, Sketch.sizes_append, List.append_assoc,
      Nat.add_assoc]
  | collapse other plain hidden _ _ ihWithin ihRest =>
    rw [List.map_cons, List.cons_append,
      strokes_collapse other plain (Detail.hides_iff.1 hidden), ihWithin, ihRest,
      Sketch.entriesOf_append, Sketch.sizes_append, List.append_assoc, Nat.add_assoc]
  | stop simple shown labelled _ ih =>
    subst simple
    rw [List.map_cons, List.cons_append, strokes_stop shown labelled, entries_draw, ih]
    simp only [Sketch.entriesOf, Sketch.entries, Sketch.sizes, Sketch.size, List.cons_append,
      List.nil_append, Nat.add_zero, Nat.add_assoc]
  | enter full shown labelled body _ _ ihWithin ihRest =>
    subst full
    rw [List.map_cons, List.cons_append, strokes_enter shown labelled body, entries_draw, ihWithin,
      ihRest]
    simp only [Sketch.entriesOf, Sketch.entries, Sketch.sizes, Sketch.size, List.cons_append,
      List.append_assoc, Nat.add_assoc]

theorem startsWith_iff {keys : List DefineKey} : g.StartsWith id keys ↔ keys = g.ownKeys id := by
  unfold ownKeys
  cases own : (g.enclosing? id .define).bind g.defineKey? with
  | some key =>
    obtain ⟨define, around, named⟩ := Option.bind_eq_some_iff.1 own
    refine ⟨fun starts => ?_, ?_⟩
    · cases starts with
      | around also there =>
        cases around.symm.trans also
        cases named.symm.trans there
        rfl
      | nothing unnamed => cases (unnamed define around).symm.trans named
    · rintro rfl
      exact .around around named
  | none =>
    have unnamed := Option.bind_eq_none_iff.1 own
    refine ⟨fun starts => ?_, ?_⟩
    · cases starts with
      | around around named => cases (unnamed _ around).symm.trans named
      | nothing => rfl
    · rintro rfl
      exact .nothing unnamed

theorem StartsWith.nodup {keys : List DefineKey} (starts : g.StartsWith id keys) : keys.Nodup := by
  cases starts with
  | around => exact List.nodup_singleton _
  | nothing => exact List.nodup_nil

theorem DrawnAs.diagram_eq {name : String} {below : List Sketch} {before : List DefineKey}
    (drawn : g.DrawnAs detail id name below before after) :
    g.diagram detail id = .ofSketches ⟨.element, name, false⟩ below := by
  obtain ⟨named, starts, content, body, sketches⟩ := drawn
  obtain rfl := goesBy_iff.1 named
  obtain rfl := startsWith_iff.1 starts
  obtain rfl := hasBody_iff.1 body
  have strokes := sketches.entries_strokes 0 1 []
  rw [List.append_nil, show g.strokes detail [] after _ = [] by rw [Grammar.strokes]] at strokes
  have whole : Stroke.entries 1 (g.elementStrokes detail id) = Sketch.entriesOf 0 1 below :=
    strokes.trans (List.append_nil _)
  rw [Grammar.diagram_eq, whole]
  rfl

theorem forall_attached (holds : Nat → Prop) {ids : List Nat} {pending : List (Nat × Nat)}
    (here : holds parent) (later : ∀ pair ∈ pending, holds pair.2) :
    ∀ pair ∈ ids.map (·, parent) ++ pending, holds pair.2 := by
  intro pair member
  rcases List.mem_append.1 member with inner | outer
  · obtain ⟨_, _, rfl⟩ := List.mem_map.1 inner
    exact here
  · exact later pair outer

namespace Drawing

variable {pending : List (Nat × Nat)}

/-- Every node is drawn below one that is there already and is no reference, if `front` are the
nodes so far and whatever is pending is to be drawn below such a node. -/
theorem starts (drawing : g.Drawing detail pending visited next strokes) {front : List DrawnNode}
    (length : front.length = next) (solid : ∀ pair ∈ pending, IsSolid front pair.2) :
    ∀ entry ∈ Stroke.entries next strokes, entry.1.1 < entry.1.2 ∧
      IsSolid (front ++ (Stroke.entries next strokes).map Prod.snd) entry.1.1 := by
  induction drawing generalizing front with
  | done => nofun
  | pass _ _ ih => exact ih length (List.forall_mem_cons.1 solid).2
  | again _ _ _ _ ih =>
    obtain ⟨here, later⟩ := List.forall_mem_cons.1 solid
    exact entries_draw_solid length here
      (ih (by simp [length]) fun pair member => (later pair member).append _)
  | expand _ _ _ _ ih =>
    obtain ⟨here, later⟩ := List.forall_mem_cons.1 solid
    rw [entries_notice]
    exact ih length (forall_attached _ here later)
  | collapse _ _ _ _ ih =>
    obtain ⟨here, later⟩ := List.forall_mem_cons.1 solid
    exact ih length (forall_attached _ here later)
  | draw _ _ _ _ ih =>
    obtain ⟨here, later⟩ := List.forall_mem_cons.1 solid
    refine entries_draw_solid length here (ih (by simp [length]) (forall_attached _ ?_ ?_))
    · exact ⟨_, by rw [← length]; exact List.getElem?_concat_length .., rfl⟩
    · exact fun pair member => (later pair member).append _

/-- A simple drawing draws nothing below what it draws. -/
theorem starts_simple (drawing : g.Drawing .simple pending visited next strokes)
    (below : ∀ pair ∈ pending, pair.2 = parent) :
    ∀ entry ∈ Stroke.entries next strokes, entry.1.1 = parent := by
  induction drawing with
  | done => nofun
  | pass _ _ ih => exact ih (List.forall_mem_cons.1 below).2
  | again _ _ _ _ ih =>
    obtain ⟨here, later⟩ := List.forall_mem_cons.1 below
    exact List.forall_mem_cons.2 ⟨here, ih later⟩
  | expand _ _ _ _ ih =>
    obtain ⟨here, later⟩ := List.forall_mem_cons.1 below
    rw [entries_notice]
    exact ih (forall_attached (· = parent) here later)
  | collapse _ _ _ _ ih =>
    obtain ⟨here, later⟩ := List.forall_mem_cons.1 below
    exact ih (forall_attached (· = parent) here later)
  | draw _ _ _ _ ih =>
    obtain ⟨here, later⟩ := List.forall_mem_cons.1 below
    exact List.forall_mem_cons.2 ⟨here, ih later⟩

end Drawing

/-- The root is there before anything is drawn, and what is pending is drawn below it. -/
theorem solid_root (g : Grammar) (id : Nat) : ∀ pair ∈ (g.contentChildren id).map (·, 0),
    IsSolid [⟨.element, g.elementName id, false⟩] pair.2 := by
  intro pair member
  obtain ⟨_, _, rfl⟩ := List.mem_map.1 member
  exact ⟨_, rfl, rfl⟩

theorem isTree_diagram (g : Grammar) (detail : Detail) (id : Nat) :
    (g.diagram detail id).IsTree := by
  rw [diagram_eq]
  refine ⟨rfl, by simp, fun index edge found => ?_⟩
  rw [List.getElem?_map] at found
  obtain ⟨entry, there, rfl⟩ := Option.map_eq_some_iff.1 found
  have starts := (g.drawing_elementStrokes detail id).starts rfl (g.solid_root id) entry
    (List.mem_of_getElem? there)
  exact ⟨(entries_end there).trans (Nat.add_comm ..), starts.1⟩

/-- A diagram is what the recursion draws below its root, in the same order and with the same edges.
The recursion comes to an end for every element, starts with the key of the definition around it,
and expands no key twice. So a diagram is a tree with its nodes numbered as they are drawn, in which
references are leaves, and in a simple diagram all nodes but the root are. -/
theorem diagram_drawn (g : Grammar) (detail : Detail) (id : Nat) :
    (∃ name below before after, g.DrawnAs detail id name below before after) ∧
    (∀ name below before after, g.DrawnAs detail id name below before after →
      g.diagram detail id = .ofSketches ⟨.element, name, false⟩ below ∧
        after.Nodup ∧ before <:+ after) ∧
    (g.diagram detail id).IsTree ∧
    (∀ child < (g.diagram detail id).nodes.length,
      Relation.ReflTransGen (g.diagram detail id).Edge (g.diagram detail id).root child ∧
        (0 < child → ∃! parent, (g.diagram detail id).Edge parent child)) ∧
    (∀ edge ∈ (g.diagram detail id).edges, IsSolid (g.diagram detail id).nodes edge.1) ∧
    (detail = .simple → ∀ edge ∈ (g.diagram detail id).edges, edge.1 = 0) := by
  have drawing := g.drawing_elementStrokes detail id
  have tree := g.isTree_diagram detail id
  refine ⟨?_, fun name below before after drawn => ?_, tree, fun child inside => ?_, ?_, ?_⟩
  · obtain ⟨below, after, sketches⟩ := drawing.exists_sketches
    rw [fst_attach] at sketches
    exact ⟨_, below, _, after, goesBy_iff.2 rfl, startsWith_iff.2 rfl, _, hasBody_iff.2 rfl, sketches⟩
  · obtain ⟨_, _, sketches⟩ := drawn.sketches
    exact ⟨drawn.diagram_eq, sketches.expanded drawn.starts.nodup⟩
  · exact ⟨tree.reached inside, fun behind => tree.existsUnique_parent behind inside⟩
  · intro edge member
    rw [diagram_eq] at member ⊢
    obtain ⟨entry, among, rfl⟩ := List.mem_map.1 member
    exact (drawing.starts rfl (g.solid_root id) entry among).2
  · rintro rfl edge member
    rw [diagram_eq] at member
    obtain ⟨entry, among, rfl⟩ := List.mem_map.1 member
    refine drawing.starts_simple (fun pair member => ?_) entry among
    obtain ⟨_, _, rfl⟩ := List.mem_map.1 member
    rfl

/-- A book of chapters, each of which is empty or has the book in it. -/
def bookDocument : Xml.Document := .ofContent
  [.pattern .define "book" [.pattern .element "book"
    [.pattern .optional none [.pattern .attr "lang" [.pattern .text none []]],
     .pattern .oneOrMore none [.pattern .ref "chapter" []]]],
   .pattern .define "chapter" [.pattern .element none
    [.element ⟨⟨some Namespace.structural, "name"⟩, [], []⟩ [.text "chapter"],
     .pattern .choice none [.pattern .empty none [], .pattern .ref "book" []]]]]

/-- The grammar of `bookDocument`; its elements are at 2 and 9. -/
def book : Grammar := .ofKept bookDocument rfl

theorem book_loaded : book.Loaded := loaded_ofKept _ rfl rfl

/-- The key of the book. -/
def bookKey : DefineKey := ⟨some 0, "book"⟩

/-- The key of the chapters. -/
def chapterKey : DefineKey := ⟨some 0, "chapter"⟩

/-- What is drawn below the book. A chapter is drawn in place of the reference to it, and the book in
the chapter is one that is expanded already. -/
def bookSketches : Detail → List Sketch
  | .simple => [.node ⟨.attr, "lang", false⟩ [], .node ⟨.element, "chapter", false⟩ []]
  | .full =>
    [.node ⟨.optional, "?", false⟩ [.node ⟨.attr, "lang", false⟩ [.node ⟨.text, "text", false⟩ []]],
     .node ⟨.oneOrMore, "+", false⟩ [.node ⟨.element, "chapter", false⟩
       [.node ⟨.choice, "|", false⟩
         [.node ⟨.empty, "empty", false⟩ [], .node ⟨.ref, "book", true⟩ []]]]]

/-- The chapters have their name from a name class. -/
theorem book_isNameClass : book.IsNameClass 9 10 :=
  ⟨.inl rfl, rfl, by decide +kernel, [], [11], rfl, nofun⟩

theorem book_labels : book.HasLabel 4 "lang" ∧ book.HasLabel 9 "chapter" :=
  ⟨.attr rfl (.written rfl), .element rfl (.declared (.single rfl book_isNameClass rfl))⟩

/-- The reference to the chapters gives way to their definition. -/
theorem book_expand {detail : Detail} {drawn : List Sketch}
    (within : book.Sketches detail [9] [chapterKey, bookKey] drawn [chapterKey, bookKey]) :
    book.Sketches detail [7] [bookKey] (drawn ++ []) [chapterKey, bookKey] := by
  have inner : (book.definesOf chapterKey).flatMap book.children = [9] := by decide +kernel
  exact .expand rfl (by decide +kernel) (by decide) (inner ▸ within) .done

theorem book_sketches_simple :
    book.Sketches .simple [3, 6] [bookKey] (bookSketches .simple) [chapterKey, bookKey] := by
  have hidden : ∀ id ∈ [3, 6], Detail.simple.draws (book.kind id) = false := by decide +kernel
  have lang : book.Sketches .simple (book.children 3) [bookKey] _ [bookKey] :=
    .stop rfl (.inr rfl) book_labels.1 .done
  have chapter : book.Sketches .simple (book.children 6) [bookKey] _ [chapterKey, bookKey] :=
    book_expand (.stop rfl (.inl rfl) book_labels.2 .done)
  exact .collapse (by decide +kernel) rfl (Detail.hides_iff.2 (hidden 3 (by decide))) lang
    (.collapse (by decide +kernel) rfl (Detail.hides_iff.2 (hidden 6 (by decide))) chapter .done)

theorem book_sketches_full :
    book.Sketches .full [3, 6] [bookKey] (bookSketches .full) [chapterKey, bookKey] := by
  have shown : ∀ id ∈ [3, 4, 5, 6, 9, 11, 12], book.kind id ∉
      ([.documentation, .ref, .parentRef, .grammar, .start, .define, .inclusion] : List Kind) := by
    decide +kernel
  have fixed : ∀ pair ∈ [(3, "?"), (5, "text"), (6, "+"), (11, "|"), (12, "empty")],
      (book.kind pair.1, pair.2) ∈ fixedLabels := by decide +kernel
  have content : ∀ pair ∈ [(3, [4]), (4, [5]), (5, []), (6, [7]), (11, [12, 13]), (12, [])],
      pair.2 = book.contentChildren pair.1 := by decide +kernel
  have lang : book.Sketches .full [4] [bookKey] _ [bookKey] :=
    .enter rfl (shown 4 (by decide)) book_labels.1 (hasBody_iff.2 (content (4, [5]) (by decide)))
      (.enter rfl (shown 5 (by decide)) (.fixed (fixed (5, "text") (by decide)))
        (hasBody_iff.2 (content (5, []) (by decide))) .done .done) .done
  have choices : book.Sketches .full [12, 13] [chapterKey, bookKey] _ [chapterKey, bookKey] :=
    .enter rfl (shown 12 (by decide)) (.fixed (fixed (12, "empty") (by decide)))
      (hasBody_iff.2 (content (12, []) (by decide))) .done
      (.again rfl (by decide +kernel : book.defineKey? 13 = some bookKey) (by decide) .done)
  have chapter : book.Sketches .full [7] [bookKey] _ [chapterKey, bookKey] :=
    book_expand (.enter rfl (shown 9 (by decide)) book_labels.2 (.without book_isNameClass)
      (.enter rfl (shown 11 (by decide)) (.fixed (fixed (11, "|") (by decide)))
        (hasBody_iff.2 (content (11, [12, 13]) (by decide))) choices .done) .done)
  exact .enter rfl (shown 3 (by decide)) (.fixed (fixed (3, "?") (by decide)))
    (hasBody_iff.2 (content (3, [4]) (by decide))) lang
    (.enter rfl (shown 6 (by decide)) (.fixed (fixed (6, "+") (by decide)))
      (hasBody_iff.2 (content (6, [7]) (by decide))) chapter .done)

theorem book_drawn : book.Loaded ∧
    book.diagram .full 2 = ⟨[⟨.element, "book", false⟩, ⟨.optional, "?", false⟩,
        ⟨.attr, "lang", false⟩, ⟨.text, "text", false⟩, ⟨.oneOrMore, "+", false⟩,
        ⟨.element, "chapter", false⟩, ⟨.choice, "|", false⟩, ⟨.empty, "empty", false⟩,
        ⟨.ref, "book", true⟩],
      [(0, 1), (1, 2), (2, 3), (0, 4), (4, 5), (5, 6), (6, 7), (6, 8)], 0⟩ ∧
    book.diagram .simple 2 = ⟨[⟨.element, "book", false⟩, ⟨.attr, "lang", false⟩,
        ⟨.element, "chapter", false⟩], [(0, 1), (0, 2)], 0⟩ := by
  have name : book.GoesBy 2 "book" := .declared (.written rfl)
  have own : book.StartsWith 2 [bookKey] := startsWith_iff.2 (by decide +kernel)
  have body : book.HasBody 2 [3, 6] := hasBody_iff.2 (by decide +kernel)
  exact ⟨book_loaded,
    ((diagram_drawn book .full 2).2.1 _ _ _ _ ⟨name, own, _, body, book_sketches_full⟩).1,
    ((diagram_drawn book .simple 2).2.1 _ _ _ _ ⟨name, own, _, body, book_sketches_simple⟩).1⟩

end Grammar

end RelaxDoc
