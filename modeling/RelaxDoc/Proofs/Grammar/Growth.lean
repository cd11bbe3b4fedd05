import RelaxDoc.Grammar.Build
import RelaxDoc.Run

/-! The grammar of a document as it grows, one element at a time. Elements wait on a stack; the one
on top becomes the next node, and the elements in it are put in its place. No step changes what comes
of the nodes and of all that waits, and in the end that is what the layout says. -/
namespace RelaxDoc

/-- How many nodes come of an element that is met, what is in it apart. -/
def Visit.count : Visit → Nat
  | .kept _ => 1
  | .skipped _ => 0

namespace Run

/-- Meeting elements when `count` are kept already: the skipped are told of, and the kept are held
against the limits. -/
def meet (limits : Limits) (count : Nat) (visits : List Visit) : Run Unit := do
  sayAll (limits.skipMessages count visits)
  ofExcept (limits.checkVisits count visits)

theorem meet_kept (limits : Limits) (count depth : Nat) (rest : List Visit) :
    meet limits count (.kept depth :: rest) =
      ofExcept (limits.checkDepth depth) >>= fun _ =>
        ofExcept (limits.checkNodes (count + 1)) >>= fun _ => meet limits (count + 1) rest := by
  rw [meet, Limits.skipMessages, Limits.checkVisits, Limits.checkDepth, Limits.checkNodes]
  by_cases deep : depth > limits.maxDepth
  · simp only [deep, decide_true, Bool.true_or, if_true]
    rfl
  · by_cases many : count + 1 > limits.maxNodes
    · simp only [deep, many, decide_true, Bool.or_true, if_true, if_false]
      rfl
    · simp only [deep, many, decide_false, Bool.or_self, if_false]
      rfl

theorem meet_cons (limits : Limits) (count : Nat) (visit : Visit) (rest : List Visit) :
    meet limits count (visit :: rest) =
      meet limits count [visit] >>= fun _ => meet limits (count + visit.count) rest := by
  cases visit with
  | skipped name => rfl
  | kept depth =>
    rw [meet_kept, meet_kept]
    simp only [bind_assoc]
    rfl

end Run

/-- An element that waits on the stack: the declarations in force around it, the nodes behind it, the
node it is in, and how deep it stands. -/
structure Waiting where
  tag : Xml.Tag
  children : List Xml.Node
  outer : Xml.Scope
  following : List Xml.Node
  parent : Option Nat
  depth : Nat

/-- Nodes of which `ids` are further children of their parent. -/
def adopt (parent : Option Nat) (ids : List Nat) (nodes : List Node) : List Node :=
  match parent with
  | none => nodes
  | some parent => nodes.modify parent fun node => { node with children := node.children ++ ids }

theorem length_adopt (parent : Option Nat) (ids : List Nat) (nodes : List Node) :
    (adopt parent ids nodes).length = nodes.length := by
  cases parent with
  | none => rfl
  | some parent => exact List.length_modify ..

theorem adopt_nil (parent : Option Nat) (nodes : List Node) : adopt parent [] nodes = nodes := by
  cases parent with
  | none => rfl
  | some parent =>
    simp only [adopt, List.append_nil]
    exact List.modify_id ..

theorem adopt_adopt (parent : Option Nat) (ids more : List Nat) (nodes : List Node) :
    adopt parent more (adopt parent ids nodes) = adopt parent (ids ++ more) nodes := by
  cases parent with
  | none => rfl
  | some parent =>
    rw [adopt, adopt, List.modify_modify_eq]
    simp only [adopt, Function.comp_def, List.append_assoc]

theorem adopt_append_of_lt {parent : Nat} {nodes : List Node} (above : parent < nodes.length)
    (ids : List Nat) (more : List Node) :
    adopt (some parent) ids (nodes ++ more) = adopt (some parent) ids nodes ++ more := by
  induction nodes generalizing parent with
  | nil => cases above
  | cons node rest ih =>
    cases parent with
    | zero => rfl
    | succ parent => exact congrArg (node :: ·) (ih (Nat.lt_of_succ_lt_succ above))

theorem adopt_last (nodes : List Node) (node : Node) (ids : List Nat) :
    adopt (some nodes.length) ids (nodes ++ [node]) =
      nodes ++ [{ node with children := node.children ++ ids }] := by
  induction nodes with
  | nil => rfl
  | cons first rest ih => exact congrArg (first :: ·) ih

namespace Waiting

/-- The elements among nodes, the first of them on top. -/
def ofNodes (outer : Xml.Scope) (parent : Option Nat) (depth : Nat) : List Xml.Node → List Waiting
  | [] => []
  | .element tag children :: rest =>
    ⟨tag, children, outer, rest, parent, depth⟩ :: ofNodes outer parent depth rest
  | .text _ :: rest | .comment _ :: rest | .instruction _ _ :: rest =>
    ofNodes outer parent depth rest

/-- The node at `id` that an element becomes, as yet without children. -/
def node (element : Waiting) (kind : Kind) (id : Nat) : Node where
  kind := kind
  attributes := plainAttributes element.tag.attributes
  text := keptText kind element.children
  children := []
  parent := element.parent
  prefixes := newPrefixes element.outer element.tag.declarations
  remark :=
    if kind = .value && (Xml.firstTag? element.following).any fun next =>
        Kind.ofName? next.name = some .documentation
    then some (id + 1) else none

/-- The nodes with the one that an element becomes. An element of no known kind is skipped. -/
def put (limits : Limits) (nodes : List Node) (element : Waiting) : Run (List Node) :=
  match Kind.ofName? element.tag.name with
  | none => do
    Run.sayAll [Visit.skipMessage element.tag.name]
    return nodes
  | some kind => do
    Run.ofExcept (limits.checkDepth element.depth)
    let more := adopt element.parent [nodes.length] nodes ++ [element.node kind nodes.length]
    Run.ofExcept (limits.checkNodes more.length)
    return more

/-- The elements that come to wait in the place of one that becomes the node at `id`. -/
def inside (id : Nat) (element : Waiting) : List Waiting :=
  match Kind.ofName? element.tag.name with
  | none => []
  | some kind =>
    if kind.holdsText then []
    else ofNodes (element.outer.enter element.tag.declarations) (some id) (element.depth + 1)
      element.children

/-- An element as it is met. -/
def visit (element : Waiting) : Visit :=
  match Kind.ofName? element.tag.name with
  | none => .skipped element.tag.name
  | some _ => .kept element.depth

/-- All that is met from the start of an element to its end. -/
def visits (element : Waiting) : List Visit :=
  Visit.ofNode element.depth (.element element.tag element.children)

theorem flatMap_visits_ofNodes (outer : Xml.Scope) (parent : Option Nat) (depth : Nat)
    (nodes : List Xml.Node) :
    (ofNodes outer parent depth nodes).flatMap visits = Visit.ofNodes depth nodes := by
  induction nodes with
  | nil => rfl
  | cons node rest ih =>
    rw [Visit.ofNodes, ← ih]
    cases node <;> rfl

theorem visits_eq (id : Nat) (element : Waiting) :
    element.visits = element.visit :: (element.inside id).flatMap visits := by
  rw [visits, Visit.ofNode, visit, inside]
  cases Kind.ofName? element.tag.name with
  | none => rfl
  | some kind =>
    by_cases holds : kind.holdsText = true
    · simp only [if_pos holds]
      rfl
    · simp only [if_neg holds, flatMap_visits_ofNodes]

end Waiting

/-- The nodes that there are when no element waits any more. -/
def grow (limits : Limits) (nodes : List Node) : List Waiting → Run (List Node)
  | [] => return nodes
  | element :: rest => do
    let more ← element.put limits nodes
    grow limits more (element.inside nodes.length ++ rest)
termination_by waiting => (waiting.flatMap Waiting.visits).length
decreasing_by
  rw [List.flatMap_cons, List.flatMap_append, element.visits_eq nodes.length]
  exact Nat.lt_succ_self _

/-- The nodes of the grammar of a document, from its root on. -/
def Grammar.build (limits : Limits) (document : Xml.Document) : Run (List Node) := do
  Run.ofExcept (checkRoot document)
  match Kind.ofName? document.root.name with
  | none => throw (.malformed (.notPattern document.root.name.localName))
  | some _ =>
    let nodes ← grow limits [] (Waiting.ofNodes [] none 1 [document.toNode])
    Run.say .debug s!"Built grammar model with {nodes.length} nodes"
    return nodes

namespace Waiting

variable {limits : Limits} {nodes : List Node} {element : Waiting}

/-- The nodes with the one that an element becomes, whatever the limits. -/
def placed (nodes : List Node) (element : Waiting) : List Node :=
  match Kind.ofName? element.tag.name with
  | none => nodes
  | some kind => adopt element.parent [nodes.length] nodes ++ [element.node kind nodes.length]

theorem length_placed : (element.placed nodes).length = nodes.length + element.visit.count := by
  rw [placed, visit]
  cases Kind.ofName? element.tag.name with
  | none => rfl
  | some kind => rw [List.length_append, length_adopt]; rfl

/-- What one step does: it meets the element on top and makes it a node. -/
theorem put_eq : element.put limits nodes =
    Run.meet limits nodes.length [element.visit] >>= fun _ => pure (element.placed nodes) := by
  rw [put, visit, placed]
  cases Kind.ofName? element.tag.name with
  | none => rfl
  | some kind =>
    simp only [List.length_append, length_adopt, Run.meet_kept, bind_assoc]
    rfl

/-- The nodes with all those that come of an element. -/
def grafted (nodes : List Node) (element : Waiting) : List Node :=
  match Particle.ofNode? element.outer element.following (.element element.tag element.children) with
  | none => nodes
  | some particle =>
    adopt element.parent [nodes.length] nodes ++ Particle.nodes element.parent nodes.length particle

/-- The elements of a list become further children of the node they are in, and the nodes behind it. -/
theorem foldl_grafted_ofNodes {parent : Nat} (above : parent < nodes.length) (outer : Xml.Scope)
    (depth : Nat) (children : List Xml.Node) :
    (ofNodes outer (some parent) depth children).foldl grafted nodes =
      adopt (some parent) (Particle.positions nodes.length (Particle.ofNodes outer children)) nodes ++
        Particle.nodesOfAll parent nodes.length (Particle.ofNodes outer children) := by
  induction children generalizing nodes with
  | nil =>
    rw [ofNodes, Particle.ofNodes, Particle.positions, Particle.nodesOfAll, adopt_nil]
    exact (List.append_nil _).symm
  | cons child rest ih =>
    cases child with
    | element tag children =>
      rw [ofNodes, List.foldl_cons, grafted, Particle.ofNodes]
      cases Particle.ofNode? outer rest (.element tag children) with
      | none => exact ih above
      | some particle =>
        have inside : parent < (adopt (some parent) [nodes.length] nodes).length := by
          rwa [length_adopt]
        have longer : (adopt (some parent) [nodes.length] nodes ++
            Particle.nodes (some parent) nodes.length particle).length =
              nodes.length + particle.size := by
          rw [List.length_append, length_adopt, Particle.length_nodes]
        dsimp only
        rw [ih (by omega), longer, adopt_append_of_lt inside, adopt_adopt, List.append_assoc]
        rfl
    | text | comment | instruction => exact ih above

/-- One step changes nothing about the nodes that come of an element: they come of the node that it
becomes and of what is inside. -/
theorem grafted_eq : element.grafted nodes =
    (element.inside nodes.length).foldl grafted (element.placed nodes) := by
  rw [grafted, inside, placed, Particle.ofNode?]
  cases Kind.ofName? element.tag.name with
  | none => rfl
  | some kind =>
    by_cases holds : kind.holdsText = true
    · simp only [if_pos holds]
      rfl
    · have longer : (adopt element.parent [nodes.length] nodes ++
          [element.node kind nodes.length]).length = nodes.length + 1 := by
        rw [List.length_append, length_adopt]
        rfl
      have last := adopt_last (adopt element.parent [nodes.length] nodes)
        (element.node kind nodes.length)
      simp only [if_neg holds]
      rw [length_adopt] at last
      rw [foldl_grafted_ofNodes (by omega), longer, last, List.append_assoc]
      rfl

end Waiting

/-- The whole run meets all that waits, and makes the nodes that come of it. -/
theorem grow_eq (limits : Limits) (nodes : List Node) (waiting : List Waiting) :
    grow limits nodes waiting =
      Run.meet limits nodes.length (waiting.flatMap Waiting.visits) >>= fun _ =>
        pure (waiting.foldl Waiting.grafted nodes) := by
  induction nodes, waiting using grow.induct with
  | case1 nodes =>
    rw [grow]
    rfl
  | case2 nodes element rest ih =>
    have met : (element :: rest).flatMap Waiting.visits =
        element.visit :: (element.inside nodes.length ++ rest).flatMap Waiting.visits := by
      rw [List.flatMap_cons, List.flatMap_append, element.visits_eq nodes.length, List.cons_append]
    have comes : (element :: rest).foldl Waiting.grafted nodes =
        (element.inside nodes.length ++ rest).foldl Waiting.grafted (element.placed nodes) := by
      rw [List.foldl_cons, List.foldl_append, Waiting.grafted_eq]
    rw [grow, Waiting.put_eq, met, comes, bind_assoc]
    simp only [pure_bind, ih, Waiting.length_placed]
    rw [Run.meet_cons _ _ _ (List.flatMap ..), bind_assoc]

/-- The root comes to all that is kept of the document. -/
theorem grow_root {document : Xml.Document} {particle : Particle}
    (kept : Particle.ofNode? [] [] document.toNode = some particle) (limits : Limits) :
    grow limits [] (Waiting.ofNodes [] none 1 [document.toNode]) =
      Run.meet limits 0 (Visit.ofNode 1 document.toNode) >>= fun _ =>
        pure (particle.nodes none 0) := by
  have comes : (Waiting.ofNodes [] none 1 [document.toNode]).foldl Waiting.grafted [] =
      particle.nodes none 0 := by
    change Waiting.grafted [] ⟨document.root, document.children, [], [], none, 1⟩ = _
    rw [Waiting.grafted, ← Xml.Document.toNode, kept]
    rfl
  rw [grow_eq, comes, Waiting.flatMap_visits_ofNodes, Visit.ofNodes, Visit.ofNodes, List.append_nil]
  rfl

/-- Growing comes to the grammar that is laid out at once, with the same messages and the same errors
on the way. -/
theorem Grammar.build_eq (limits : Limits) (document : Xml.Document) :
    build limits document = Run.sayAll (buildMessages limits document) >>= fun _ =>
      Run.ofExcept ((ofDocument limits document).map fun g => g.nodes.toList) := by
  rw [build, buildMessages, ofDocument, rootParticle]
  cases checkRoot document with
  | error e => rfl
  | ok _ =>
    cases known : Kind.ofName? document.root.name with
    | none =>
      rw [Xml.Document.toNode, Particle.ofNode?, known]
      rfl
    | some kind =>
      obtain ⟨particle, kept⟩ := exists_particle known
      rw [kept]
      dsimp only
      rw [grow_root kept, Run.meet]
      cases limits.checkVisits 0 (Visit.ofNode 1 document.toNode) with
      | error e =>
        change _ = Run.sayAll (_ ++ []) >>= fun _ => Run.ofExcept (.error e)
        rw [List.append_nil]
        simp only [Run.ofExcept_ok, Run.ofExcept_error_bind, pure_bind, bind_assoc]
      | ok _ =>
        change _ = Run.sayAll (_ ++ [_]) >>= fun _ => pure (particle.nodes none 0)
        rw [Run.sayAll_append]
        simp only [Run.ofExcept_ok, pure_bind, bind_assoc]
        rfl

end RelaxDoc
