import RelaxDoc.Diagram.Basic
import RelaxDoc.Naming
import RelaxDoc.Record.Build
import RelaxDoc.Search.Weight

/-! Drawing the content model of an element. References are expanded in place, each key
once; a further reference to a key is drawn as such, which also ends recursion. -/
namespace RelaxDoc

/-- A step of drawing: a node for the pattern `id` below the node at the position `parent`, or a
reference to nothing. -/
inductive Stroke where
  | draw (parent id : Nat) (node : DrawnNode)
  | unresolved (name : String)
  deriving DecidableEq, Repr

namespace Stroke

/-- The parent and the node that a stroke draws. -/
def drawn? : Stroke → Option (Nat × DrawnNode)
  | .draw parent _ node => some (parent, node)
  | .unresolved _ => none

/-- The message of a stroke: about references that are not expanded. -/
def messages : Stroke → List Message
  | .draw _ _ node =>
    if node.reference then [⟨.trace, s!"Definition '{node.label}' already drawn"⟩] else []
  | .unresolved name => [unresolvedMessage name]

end Stroke

theorem fst_attach (ids : List Nat) (parent : Nat) :
    (ids.map (·, parent)).map Prod.fst = ids := by
  simp [Function.comp_def]

namespace Grammar

/-- The label of a drawn node. -/
def drawnLabel (g : Grammar) (id : Nat) : String :=
  let node := g.node id
  match node.kind with
  | .element => g.elementName id
  | .attr => (g.declaredName? id).getD "name class"
  | .data => (node.attribute? "type").getD ""
  | .value | .name => node.content
  | .param => node.name?.getD ""
  | .nsName => (node.attribute? "ns").getD "No Namespace"
  | kind => kind.style.glyph.getD kind.tag

/-- What is drawn below a node that is drawn itself. Simple diagrams stop there. -/
def drawnContent (g : Grammar) : Detail → Nat → List Nat
  | .simple, _ => []
  | .full, id => g.contentChildren id

theorem drawnContent_sublist (g : Grammar) (detail : Detail) (id : Nat) :
    (g.drawnContent detail id).Sublist (g.children id) := by
  cases detail with
  | simple => exact List.nil_sublist _
  | full => exact List.filter_sublist

/-- The strokes for pending nodes, each with the position of the node it is drawn below, when the
keys in `visited` are drawn and the next node gets the position `next`. -/
def strokes (g : Grammar) (detail : Detail) (pending : List (Nat × Nat))
    (visited : List DefineKey) (next : Nat) : List Stroke :=
  match pending with
  | [] => []
  | (id, parent) :: rest =>
    have weight := Search.below_pos g.size id
    have weights := Search.children_lt_below g.toArena id
    have content : Search.pendingBelow g.size (g.drawnContent detail id) ≤ _ :=
      Search.pendingBelow_sublist (g.drawnContent_sublist detail id)
    if g.kind id = .documentation then g.strokes detail rest visited next
    else if (g.kind id).isReference then
      match g.defineKey? id with
      | none => g.strokes detail rest visited next
      | some key =>
        if fresh : visited.contains key then
          .draw parent id ⟨g.kind id, key.name, true⟩ :: g.strokes detail rest visited (next + 1)
        else
          have fewer := Search.unvisited_cons_le g.table.defines visited key
          match found : g.definesOf key with
          | [] => .unresolved key.name :: g.strokes detail rest (key :: visited) next
          | first :: _ =>
            have member : first ∈ g.definesOf key := by simp [found]
            have known := KeyIndex.mem_keys_of_mem_find member
            have less := Search.unvisited_cons_lt known (by simpa using fresh)
            g.strokes detail ((g.expansion key).map (·, parent) ++ rest) (key :: visited) next
    else if !detail.draws (g.kind id) then
      g.strokes detail ((g.children id).map (·, parent) ++ rest) visited next
    else
      .draw parent id ⟨g.kind id, g.drawnLabel id, false⟩ ::
        g.strokes detail ((g.drawnContent detail id).map (·, next) ++ rest) visited (next + 1)
termination_by (Search.unvisited g.table.defines visited,
  Search.pendingBelow g.size (pending.map Prod.fst))
decreasing_by
  all_goals simp only [Prod.lex_def, List.map_cons, List.map_append, fst_attach,
    Search.pendingBelow_append, Search.pendingBelow_cons, true_and]
  all_goals omega

/-- The strokes of the content model of an element. The key of the nearest definition around
it counts as drawn. -/
def elementStrokes (g : Grammar) (detail : Detail) (id : Nat) : List Stroke :=
  g.strokes detail ((g.contentChildren id).map (·, 0))
    ((g.enclosing? id .define).bind g.defineKey?).toList 1

/-- The diagram of the content model of an element. -/
def diagram (g : Grammar) (detail : Detail) (id : Nat) : Diagram :=
  let drawn := (g.elementStrokes detail id).filterMap Stroke.drawn?
  { nodes := ⟨.element, g.elementName id, false⟩ :: drawn.map Prod.snd
    edges := drawn.zipIdx.map fun (stroke, index) => (stroke.1, index + 1)
    root := 0 }

/-- The messages of drawing the content model of an element. -/
def diagramMessages (g : Grammar) (detail : Detail) (id : Nat) : List Message :=
  (g.elementStrokes detail id).flatMap Stroke.messages

end Grammar

end RelaxDoc
