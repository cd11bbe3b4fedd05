import RelaxDoc.Proofs.Diagram.Drawing
import RelaxDoc.Proofs.Record.Numbering

/-! Simple diagrams and records. The patterns that a simple diagram draws themselves are what a search
downwards finds when the definition around the element counts as expanded, so a reference to that
definition hides whatever is reached in no other way. -/
namespace RelaxDoc

/-- The nodes behind the root that are no references, and so are not dashed. -/
def Diagram.solidNodes (diagram : Diagram) : List DrawnNode :=
  diagram.nodes.tail.filter fun node => !node.reference

namespace Grammar

variable {g : Grammar} {target : Kind} {id : Nat}

/-- The patterns that the diagram of an element draws themselves, in order. -/
def drawnPatterns (g : Grammar) (detail : Detail) (id : Nat) : List Nat :=
  (g.elementStrokes detail id).filterMap Stroke.pattern?

/-- The key of the nearest definition around a node, which counts as drawn in its diagram. -/
def ownKeys (g : Grammar) (id : Nat) : List DefineKey :=
  ((g.enclosing? id .define).bind g.defineKey?).toList

/-- Elements and attributes, which a simple diagram draws and a search does not enter. -/
def IsBoundary (g : Grammar) (id : Nat) : Prop := g.kind id = .element ∨ g.kind id = .attr

theorem drawing_elementStrokes (g : Grammar) (detail : Detail) (id : Nat) :
    g.Drawing detail ((g.contentChildren id).map (·, 0)) (g.ownKeys id) 1
      (g.elementStrokes detail id) := g.drawing_strokes ..

theorem solidNodes_diagram (g : Grammar) (detail : Detail) (id : Nat) :
    (g.diagram detail id).solidNodes = (g.drawnPatterns detail id).map g.drawnNode :=
  (g.drawing_elementStrokes detail id).filter_nodes

theorem draws_simple_iff : Detail.simple.draws (g.kind id) = true ↔ g.IsBoundary id := by
  simp [Detail.draws, IsBoundary]

theorem kind_ne_of_isReference (boundary : target = .element ∨ target = .attr)
    (refers : (g.kind id).isReference = true) : g.kind id ≠ target := by
  rintro rfl
  exact not_boundary_of_isReference refers boundary

/-- A search takes the nodes that are drawn, and finds those of them that are drawn themselves. -/
structure Accompanies (g : Grammar) (target : Kind) (trail : List Nat) (drawn : List Stroke) :
    Prop where
  finds : trail.filter (fun id => g.kind id = target) =
    (drawn.filterMap Stroke.pattern?).filter fun id => g.kind id = target
  takes : ∀ parent id node, .draw parent id node ∈ drawn → id ∈ trail

namespace Accompanies

variable {trail : List Nat} {drawn : List Stroke} {parent : Nat} {node : DrawnNode}

theorem pass (accompanies : g.Accompanies target trail drawn) (other : g.kind id ≠ target) :
    g.Accompanies target (id :: trail) drawn where
  finds := by rw [List.filter_cons_of_neg (by simpa using other), accompanies.finds]
  takes parent inner node member :=
    List.mem_cons_of_mem _ (accompanies.takes parent inner node member)

theorem takes_cons (accompanies : g.Accompanies target trail drawn) (around inner : Nat)
    (shown : DrawnNode) (member : .draw around inner shown ∈ .draw parent id node :: drawn) :
    inner ∈ id :: trail := by
  rcases List.mem_cons.1 member with same | further
  · cases same
    exact List.mem_cons_self ..
  · exact List.mem_cons_of_mem _ (accompanies.takes around inner shown further)

theorem reference (accompanies : g.Accompanies target trail drawn) (other : g.kind id ≠ target)
    (dashed : node.reference = true) :
    g.Accompanies target (id :: trail) (.draw parent id node :: drawn) where
  finds := by
    rw [(accompanies.pass other).finds, List.filterMap_cons_none (by simp [Stroke.pattern?, dashed])]
  takes := accompanies.takes_cons

theorem pattern (accompanies : g.Accompanies target trail drawn) (whole : node.reference = false) :
    g.Accompanies target (id :: trail) (.draw parent id node :: drawn) where
  finds := by
    have shown : (Stroke.draw parent id node).pattern? = some id := by simp [Stroke.pattern?, whole]
    rw [List.filterMap_cons_some shown, List.filter_cons, List.filter_cons, accompanies.finds]
  takes := accompanies.takes_cons

theorem notice (accompanies : g.Accompanies target trail drawn) (key : DefineKey) :
    g.Accompanies target trail (g.notice key ++ drawn) where
  finds := by
    rw [accompanies.finds, List.filterMap_append, filterMap_notice _ fun _ => rfl, List.nil_append]
  takes parent inner node member :=
    accompanies.takes parent inner node ((List.mem_append.1 member).resolve_left not_mem_notice)

end Accompanies

/-- A simple drawing goes on where a search does, and draws where the search stops. -/
theorem Drawing.exists_walk {pending : List (Nat × Nat)} {visited : List DefineKey} {next : Nat}
    {drawn : List Stroke} (drawing : g.Drawing .simple pending visited next drawn)
    (loaded : g.Loaded) (boundary : target = .element ∨ target = .attr) :
    ∃ trail keys, g.Walk target (pending.map Prod.fst) visited trail keys ∧
      g.Accompanies target trail drawn := by
  induction drawing with
  | done => exact ⟨[], [], .done, rfl, nofun⟩
  | @pass _ _ _ _ id _ idle _ ih =>
    obtain ⟨trail, keys, walk, accompanies⟩ := ih
    rcases idle with kind | ⟨refers, unnamed⟩
    · have plain : g.kind id ≠ .element ∧ g.kind id ≠ .attr := by
        rw [kind]
        decide
      have other : g.kind id ≠ target := by
        rcases boundary with rfl | rfl
        · exact plain.1
        · exact plain.2
      refine ⟨id :: trail, keys, .enter ⟨⟨other, plain⟩, by rw [kind]; rfl⟩ ?_, accompanies.pass other⟩
      -- Documentation holds text, so the search finds nothing to go on to.
      rw [loaded.children_of_holdsText (by rw [kind]; rfl)]
      exact walk
    · refine ⟨id :: trail, keys, .pass (fun _ => ⟨refers, fun key named => ?_⟩) walk,
        accompanies.pass (kind_ne_of_isReference boundary refers)⟩
      rw [unnamed] at named
      cases named
  | @again _ _ _ _ _ id _ refers named old _ ih =>
    obtain ⟨trail, keys, walk, accompanies⟩ := ih
    refine ⟨id :: trail, keys, .pass (fun _ => ⟨refers, fun key also => ?_⟩) walk,
      accompanies.reference (kind_ne_of_isReference boundary refers) rfl⟩
    rw [named] at also
    cases also
    exact old
  | @expand key _ _ _ _ id _ refers named fresh _ ih =>
    obtain ⟨trail, keys, walk, accompanies⟩ := ih
    have other := kind_ne_of_isReference boundary refers
    rw [List.map_append, fst_attach] at walk
    exact ⟨id :: trail, key :: keys,
      .expand ⟨other, not_or.1 (not_boundary_of_isReference refers)⟩ refers named fresh walk,
      (accompanies.pass other).notice key⟩
  | @collapse _ _ _ _ id _ _ plain hidden _ ih =>
    obtain ⟨trail, keys, walk, accompanies⟩ := ih
    have inner : ¬ g.IsBoundary id := by
      rw [← draws_simple_iff, hidden]
      exact Bool.false_ne_true
    have other : g.kind id ≠ target := by
      rintro rfl
      exact inner boundary
    rw [List.map_append, fst_attach] at walk
    exact ⟨id :: trail, keys, .enter ⟨⟨other, not_or.1 inner⟩, plain⟩ walk, accompanies.pass other⟩
  | @draw _ _ _ _ id _ _ _ shown _ ih =>
    obtain ⟨trail, keys, walk, accompanies⟩ := ih
    refine ⟨id :: trail, keys, .pass (fun enters => ?_) walk, accompanies.pattern rfl⟩
    exact absurd (draws_simple_iff.1 shown) (not_or.2 enters.2)

/-- The elements, and the attributes, that a simple diagram draws are what a search finds when the key
of the definition around the element counts as expanded. -/
theorem filter_drawnPatterns (loaded : g.Loaded) (boundary : target = .element ∨ target = .attr) :
    (g.drawnPatterns .simple id).filter (fun inner => g.kind inner = target) =
      g.hits target (g.contentChildren id) (g.ownKeys id) := by
  obtain ⟨trail, keys, walk, accompanies⟩ :=
    (g.drawing_elementStrokes .simple id).exists_walk loaded boundary
  rw [fst_attach] at walk
  obtain ⟨after, unfolds⟩ := walk.exists_unfolds
  rw [unfolds.hits_eq]
  exact accompanies.finds.symm

/-- Searches for elements and for attributes go on at the same nodes. -/
theorem entersBut_attr (g : Grammar) (barred : List DefineKey) :
    g.EntersBut barred .attr = g.EntersBut barred .element := by
  funext inner
  exact propext (and_congr_left' ⟨fun ⟨_, plain⟩ => ⟨plain.1, plain⟩, fun ⟨_, plain⟩ => ⟨plain.2, plain⟩⟩)

theorem entersBut_of_boundary (boundary : target = .element ∨ target = .attr)
    (barred : List DefineKey) : g.EntersBut barred target = g.EntersBut barred .element := by
  rcases boundary with rfl | rfl
  · rfl
  · exact g.entersBut_attr barred

/-- A simple diagram draws the elements and attributes that are reached past no reference to the
definition around its element. -/
theorem mem_drawnPatterns_iff (loaded : g.Loaded) {inner : Nat} :
    inner ∈ g.drawnPatterns .simple id ↔ g.IsBoundary inner ∧
      g.Reaches (g.EntersBut (g.ownKeys id) .element) (g.contentChildren id) inner := by
  have found (boundary : g.IsBoundary inner) : inner ∈ g.drawnPatterns .simple id ↔
      g.Reaches (g.EntersBut (g.ownKeys id) .element) (g.contentChildren id) inner := by
    have same : (g.drawnPatterns .simple id).filter (fun other => g.kind other = g.kind inner) =
        g.hits (g.kind inner) (g.contentChildren id) (g.ownKeys id) :=
      filter_drawnPatterns loaded boundary
    have among := congrArg (inner ∈ ·) same
    simpa [mem_hits_iff, entersBut_of_boundary boundary] using among
  constructor
  · intro member
    have boundary : g.IsBoundary inner :=
      draws_simple_iff.1 ((g.drawing_elementStrokes .simple id).draws_of_pattern member)
    exact ⟨boundary, (found boundary).1 member⟩
  · intro ⟨boundary, path⟩
    exact (found boundary).2 path

/-- The record of an element lists an element or attribute. -/
def Lists (g : Grammar) (id inner : Nat) : Prop :=
  inner ∈ g.descend id .element ∨ inner ∈ g.descend id .attr

theorem lists_iff {inner : Nat} : g.Lists id inner ↔ g.IsBoundary inner ∧
    g.Reaches (g.Enters .element) (g.contentChildren id) inner := by
  rw [Lists, mem_descend_iff, mem_descend_iff, ← entersBut_nil, ← entersBut_nil, entersBut_attr,
    IsBoundary, or_and_right]

/-- The definitions around an element hold the element and nothing else. -/
def FillsDefinition (g : Grammar) (id : Nat) : Prop :=
  ∀ key ∈ g.ownKeys id, ∀ inner ∈ g.expansion key, inner = id ∨ g.kind inner = .documentation

/-- If the definitions around an element hold nothing else, whatever is reached past references to them
is the element or is documentation. -/
theorem FillsDefinition.reaches_cases (fills : g.FillsDefinition id) (loaded : g.Loaded)
    (element : g.kind id = .element) {inner : Nat}
    (path : g.Reaches (g.Enters .element) (g.contentChildren id) inner) :
    g.Reaches (g.EntersBut (g.ownKeys id) .element) (g.contentChildren id) inner ∨
      inner = id ∨ g.kind inner = .documentation := by
  induction path with
  | top member => exact .inl (.top member)
  | @step outer inner _ enters member ih =>
    rcases ih with past | rfl | documentation
    · by_cases own : g.EntersBut (g.ownKeys id) .element outer
      · exact .inl (.step past own member)
      · have behind : (g.kind outer).isReference = true ∧
            ∃ key ∈ g.ownKeys id, g.defineKey? outer = some key := by
          simpa [EntersBut, enters] using own
        obtain ⟨refers, key, among, named⟩ := behind
        rw [inside, if_pos refers, deref, named] at member
        exact .inr (fills key among inner member)
    · exact absurd element enters.1
    · rw [inside, if_neg (by rw [documentation]; decide),
        loaded.children_of_holdsText (by rw [documentation]; rfl)] at member
      cases member

/-- What a simple diagram shows of the record of its element. An element or attribute that is listed is
drawn itself if and only if it is reached past no reference to the definition around the element. If
that definition holds nothing else, all that is listed is drawn, the element itself apart. A reference
to any other definition stands for what is drawn in the same diagram. -/
theorem drawn_of_listed (loaded : g.Loaded) (element : g.kind id = .element) :
    (g.diagram .simple id).solidNodes = (g.drawnPatterns .simple id).map g.drawnNode ∧
    (∀ inner, inner ∈ g.drawnPatterns .simple id ↔ g.Lists id inner ∧
      g.Reaches (g.EntersBut (g.ownKeys id) .element) (g.contentChildren id) inner) ∧
    (g.FillsDefinition id → ∀ inner, g.Lists id inner → inner ≠ id →
      inner ∈ g.drawnPatterns .simple id) ∧
    ∀ parent reference node, .draw parent reference node ∈ g.elementStrokes .simple id →
      node.reference = true → ∃ key, g.defineKey? reference = some key ∧ node.label = key.name ∧
        (key ∈ g.ownKeys id ∨ ∀ inner, g.IsBoundary inner →
          g.Reaches (g.EntersBut (g.ownKeys id) .element) (g.expansion key) inner →
          inner ∈ g.drawnPatterns .simple id) := by
  refine ⟨g.solidNodes_diagram .simple id, fun inner => ?_, ?_, ?_⟩
  · rw [mem_drawnPatterns_iff loaded, lists_iff]
    constructor
    · intro ⟨boundary, path⟩
      exact ⟨⟨boundary, path.mono fun _ => And.left⟩, path⟩
    · intro ⟨⟨boundary, _⟩, path⟩
      exact ⟨boundary, path⟩
  · intro fills inner listed other
    obtain ⟨boundary, path⟩ := lists_iff.1 listed
    rcases fills.reaches_cases loaded element path with past | same | documentation
    · exact (mem_drawnPatterns_iff loaded).2 ⟨boundary, past⟩
    · exact absurd same other
    · rcases boundary with kind | kind <;> rw [documentation] at kind <;> cases kind
  · intro parent reference node member dashed
    have drawing := g.drawing_elementStrokes .simple id
    obtain ⟨refers, key, named, label⟩ := drawing.exists_key_of_reference member dashed
    refine ⟨key, named, label, ?_⟩
    by_cases own : key ∈ g.ownKeys id
    · exact .inl own
    · refine .inr fun inner boundary path => (mem_drawnPatterns_iff loaded).2 ⟨boundary, ?_⟩
      obtain ⟨trail, keys, walk, accompanies⟩ := drawing.exists_walk loaded (.inl rfl)
      rw [fst_attach] at walk
      have reached := walk.mem_trail_iff_reaches.1 (accompanies.takes parent reference node member)
      have passes : g.EntersBut (g.ownKeys id) .element reference := by
        have plain := not_or.1 (not_boundary_of_isReference refers)
        refine ⟨⟨plain.1, plain⟩, fun _ other among same => ?_⟩
        rw [named] at same
        cases same
        exact own among
      refine reached.extend passes ?_
      rwa [inside, if_pos refers, deref, named]

/-- An element inside of another one, whose content is the definition of that. -/
def hiddenDocument : Xml.Document := .ofContent
  [.pattern .start none [.pattern .ref "x" []],
   .pattern .define "x" [.pattern .element "outer" [.pattern .element "inner"
     [.pattern .ref "x" []]]]]

/-- The grammar of `hiddenDocument`; its elements are at 4 and 5, the reference in them at 6. -/
def hidden : Grammar := .ofKept hiddenDocument rfl

theorem hidden_loaded : hidden.Loaded := loaded_ofKept _ rfl rfl

theorem hidden_listed : hidden.Lists 5 4 := by
  have path : hidden.Reaches (hidden.Enters .element) (hidden.contentChildren 5) 4 :=
    .of_chain 6 [4] (by decide +kernel) (by decide +kernel)
  exact lists_iff.2 ⟨.inl (by decide +kernel), path⟩

/-- The inner element refers to the outer one past the definition of both alone. -/
theorem hidden_not_reached :
    ¬ hidden.Reaches (hidden.EntersBut (hidden.ownKeys 5) .element) (hidden.contentChildren 5) 4 := by
  intro path
  have among : 4 ∈ [6] := by
    refine path.mem_of_closed (by decide +kernel) fun outer here passes => ?_
    have own : ⟨some 0, "x"⟩ ∈ hidden.ownKeys 5 := by decide +kernel
    rw [List.mem_singleton.1 here] at passes
    exact absurd (by decide +kernel) (passes.2 (by decide +kernel) _ own)
  exact absurd among (by decide)

theorem hidden_not_drawn : hidden.Loaded ∧ hidden.kind 5 = .element ∧
    hidden.Lists 5 4 ∧ 4 ∉ hidden.drawnPatterns .simple 5 := by
  have element : hidden.kind 5 = .element := by decide +kernel
  have drawn := (drawn_of_listed hidden_loaded element).2.1 4
  exact ⟨hidden_loaded, element, hidden_listed, fun member => hidden_not_reached (drawn.1 member).2⟩

/-- A simple diagram may hide a child of its element behind a reference. -/
theorem exists_hidden_child : ¬ ∀ g : Grammar, g.Loaded → ∀ id, g.kind id = .element →
    (∀ inner ∈ g.descend id .attr, inner ∈ g.drawnPatterns .simple id) ∧
    ∀ inner ∈ g.descend id .element, inner ≠ id → inner ∈ g.drawnPatterns .simple id := by
  intro always
  have child : 4 ∈ hidden.descend 5 .element := by
    rcases hidden_listed with child | attr
    · exact child
    · exact absurd (mem_descend_iff.1 attr).1 (by decide +kernel)
  have drawn := (always _ hidden_loaded 5 (by decide +kernel)).2 4 child (by decide)
  exact hidden_not_reached ((mem_drawnPatterns_iff hidden_loaded).1 drawn).2

/-- The solid nodes of a kind are those of the patterns of the kind. -/
theorem filter_drawnNode (ids : List Nat) (kind : Kind) :
    (ids.map g.drawnNode).filter (fun node => node.kind = kind) =
      (ids.filter fun id => g.kind id = kind).map g.drawnNode := List.filter_map

theorem drawnNode_of_element {inner : Nat} (element : g.kind inner = .element) :
    g.drawnNode inner = ⟨.element, g.elementName inner, false⟩ := by
  have kind : (g.node inner).kind = .element := element
  simp only [drawnNode, drawnLabel, element, kind]

theorem drawnNode_of_attr {inner : Nat} (attr : g.kind inner = .attr) :
    g.drawnNode inner = ⟨.attr, (g.declaredName? inner).getD "name class", false⟩ := by
  have kind : (g.node inner).kind = .attr := attr
  simp only [drawnNode, drawnLabel, attr, kind]

theorem filter_drawnPatterns_of_meetsNone (loaded : g.Loaded)
    (boundary : target = .element ∨ target = .attr)
    (unmet : g.MeetsNone .element (g.ownKeys id) (g.contentChildren id)) :
    (g.drawnPatterns .simple id).filter (fun inner => g.kind inner = target) =
      g.descend id target := by
  rw [filter_drawnPatterns loaded boundary]
  apply hits_of_meetsNone
  have enters : g.Enters target = g.Enters .element := by
    rw [← entersBut_nil, ← entersBut_nil, entersBut_of_boundary boundary]
  intro inner path passes
  rw [entersBut_of_boundary boundary]
  rw [enters] at path passes
  exact unmet inner path passes

/-- If a search from an element meets no reference to the definition around it, the solid nodes of its
simple diagram are what its record lists: the elements in order under the names of the children, and the
attributes in order under their declared names. -/
theorem solidNodes_eq_record (loaded : g.Loaded)
    (unmet : g.MeetsNone .element (g.ownKeys id) (g.contentChildren id)) :
    (g.diagram .simple id).solidNodes = (g.drawnPatterns .simple id).map g.drawnNode ∧
    (g.drawnPatterns .simple id).filter (fun inner => g.kind inner = .element) =
      g.descend id .element ∧
    (g.drawnPatterns .simple id).filter (fun inner => g.kind inner = .attr) = g.descend id .attr ∧
    (g.diagram .simple id).solidNodes.filter (fun node => node.kind = .element) =
      (g.elementRecord g.elementIndex id).children.map (fun child => ⟨.element, child.name, false⟩) ∧
    (g.diagram .simple id).solidNodes.filter (fun node => node.kind = .attr) =
      (g.descend id .attr).map
        (fun attr => ⟨.attr, (g.declaredName? attr).getD "name class", false⟩) ∧
    (g.elementRecord g.elementIndex id).attributes.map AttributeRecord.name =
      (g.descend id .attr).map fun attr => (g.declaredName? attr).getD anyName := by
  have elements := filter_drawnPatterns_of_meetsNone loaded (.inl rfl) unmet
  have attributes := filter_drawnPatterns_of_meetsNone loaded (.inr rfl) unmet
  refine ⟨g.solidNodes_diagram .simple id, elements, attributes, ?_, ?_, List.map_map ..⟩
  · have named : (g.elementRecord g.elementIndex id).children.map ChildRef.name =
        (g.descend id .element).map g.elementName := g.childRefs_names id
    rw [solidNodes_diagram, filter_drawnNode, elements]
    calc (g.descend id .element).map g.drawnNode
        = (g.descend id .element).map fun child => ⟨.element, g.elementName child, false⟩ :=
          List.map_congr_left fun child member => drawnNode_of_element (mem_descend_iff.1 member).1
      _ = ((g.descend id .element).map g.elementName).map fun name => ⟨.element, name, false⟩ := by
          rw [List.map_map]
          rfl
      _ = _ := by
          rw [← named, List.map_map]
          rfl
  · rw [solidNodes_diagram, filter_drawnNode, attributes]
    exact List.map_congr_left fun attr member => drawnNode_of_attr (mem_descend_iff.1 member).1

/-- Elements with attributes and references. The first refers to another definition twice, and that
one back to it. -/
def sharedChildDocument : Xml.Document := .ofContent
  [.pattern .start none [.pattern .ref "book" []],
   .pattern .define "book" [.pattern .element "book"
    [.pattern .optional none [.pattern .attr "lang" []],
     .pattern .oneOrMore none [.pattern .ref "chapter" []],
     .pattern .ref "chapter" [],
     .pattern .attr none [.pattern .anyName none []]]],
   .pattern .define "chapter" [.pattern .element "chapter" [.pattern .ref "book" []]]]

/-- The grammar of `sharedChildDocument`; its elements are at 4 and 13, its attributes at 6 and 10. -/
def sharedChild : Grammar := .ofKept sharedChildDocument rfl

theorem sharedChild_loaded : sharedChild.Loaded := loaded_ofKept _ rfl rfl

theorem sharedChild_unmet :
    sharedChild.MeetsNone .element (sharedChild.ownKeys 4) (sharedChild.contentChildren 4) := by
  intro id path _
  have among : id ∈ [5, 6, 7, 8, 9, 10, 13] :=
    path.mem_of_closed (by decide +kernel) (by decide +kernel)
  have none : ∀ id ∈ [5, 6, 7, 8, 9, 10, 13], ∀ key ∈ sharedChild.ownKeys 4,
      sharedChild.defineKey? id ≠ some key := by decide +kernel
  exact ⟨‹_›, fun _ => none id among⟩

theorem sharedChild_drawn : sharedChild.Loaded ∧
    sharedChild.MeetsNone .element (sharedChild.ownKeys 4) (sharedChild.contentChildren 4) ∧
    (sharedChild.drawnPatterns .simple 4).filter (fun inner => sharedChild.kind inner = .element) =
      sharedChild.descend 4 .element ∧
    (sharedChild.drawnPatterns .simple 4).filter (fun inner => sharedChild.kind inner = .attr) =
      sharedChild.descend 4 .attr := by
  have same := solidNodes_eq_record sharedChild_loaded sharedChild_unmet
  exact ⟨sharedChild_loaded, sharedChild_unmet, same.2.1, same.2.2.1⟩

end Grammar

end RelaxDoc
