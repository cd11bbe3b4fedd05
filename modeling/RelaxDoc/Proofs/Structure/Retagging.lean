import RelaxDoc.Grammar.Build
import RelaxDoc.Proofs.Grammar.Retention
import RelaxDoc.Structure.Check

/-! Documents that differ in the tag of one element. If the element keeps its name, the check finds
the same at all others; if it keeps its declarations and its trimmed attributes too, a grammar
takes no note. -/
namespace RelaxDoc

open Xml (Address)

namespace Xml

/-- The node with another tag on the element at an address. -/
def Node.retag (tag : Tag) : Address → Node → Node
  | [], .element _ children => .element tag children
  | index :: rest, .element outer children =>
    .element outer (children.modify index (Node.retag tag rest))
  | _, node => node

/-- The document with another tag on the element at an address. -/
def Document.retag (tag : Tag) : Address → Document → Document
  | [], document => ⟨tag, document.children⟩
  | index :: rest, document =>
    ⟨document.root, document.children.modify index (Node.retag tag rest)⟩

theorem Document.toNode_retag (tag : Tag) (address : Address) (document : Document) :
    (document.retag tag address).toNode = document.toNode.retag tag address := by
  cases address <;> rfl

mutual

/-- The number of elements in a node, its own included. -/
def Node.elementCount : Node → Nat
  | .element _ children => elementCounts children + 1
  | .text _ => 0
  | .comment _ => 0
  | .instruction _ _ => 0

/-- The number of elements in a list of nodes. -/
def elementCounts : List Node → Nat
  | [] => 0
  | node :: rest => node.elementCount + elementCounts rest

end

/-- The number of elements in a node that come before an address in document order. -/
def Node.elementsBefore : Address → Node → Nat
  | [], _ => 0
  | index :: rest, node =>
    1 + elementCounts (node.children.take index) +
      (node.children[index]?.map (Node.elementsBefore rest)).getD 0

variable {node child : Node} {nodes children : List Node} {tag other : Tag} {address : Address}
  {index : Nat}

/-- Changing the node at a position leaves what is in front of it and what is behind it. -/
theorem exists_modify_eq (found : nodes[index]? = some child) :
    ∃ back, nodes = nodes.take index ++ child :: back ∧
      ∀ change, nodes.modify index change = nodes.take index ++ change child :: back := by
  obtain ⟨inside, rfl⟩ := List.getElem?_eq_some_iff.1 found
  refine ⟨nodes.drop (index + 1), ?_, fun change => List.modify_eq_take_cons_drop inside⟩
  rw [List.getElem_cons_drop, List.take_append_drop]

theorem Node.retag_self (found : node.at? address = some (.element tag children)) :
    node.retag tag address = node := by
  induction address generalizing node with
  | nil =>
    cases found
    rfl
  | cons index rest ih =>
    obtain ⟨child, here, below⟩ := Node.at?_cons.1 found
    cases node with
    | element outer content =>
      obtain ⟨back, whole, modified⟩ := exists_modify_eq here
      have same : content.modify index (Node.retag tag rest) = content := by
        refine (modified _).trans ?_
        rw [ih below]
        exact whole.symm
      rw [Node.retag, same]
    | text | comment | instruction => cases here

/-- A tag that says the same to a grammar as another. -/
structure Tag.Alike (tag other : Tag) : Prop where
  name : other.name = tag.name
  attributes : plainAttributes other.attributes = plainAttributes tag.attributes
  declarations : other.declarations = tag.declarations

/-- Nodes whose first elements have one name, if there are any. -/
def BeginAlike (nodes others : List Node) : Prop :=
  (firstTag? others).map Tag.name = (firstTag? nodes).map Tag.name

/-- A node that a grammar reads like another, wherever it stands. -/
structure Node.ReadAlike (node other : Node) : Prop where
  name : other.tag?.map Tag.name = node.tag?.map Tag.name
  direct : directText [other] = directText [node]
  full : other.fullText = node.fullText
  kept : ∀ outer {following further : List Node}, BeginAlike following further →
    Particle.ofNode? outer further other = Particle.ofNode? outer following node
  visited : ∀ depth, Visit.ofNode depth other = Visit.ofNode depth node

/-- Nodes that a grammar reads like others, wherever they stand. -/
structure ReadAlike (nodes others : List Node) : Prop where
  first : BeginAlike nodes others
  direct : directText others = directText nodes
  full : fullTexts others = fullTexts nodes
  kept : ∀ outer, Particle.ofNodes outer others = Particle.ofNodes outer nodes
  visited : ∀ depth, Visit.ofNodes depth others = Visit.ofNodes depth nodes

theorem directText_cons (node : Node) (rest : List Node) :
    directText (node :: rest) = directText [node] ++ directText rest := by
  cases node <;> simp [directText]

namespace ReadAlike

variable {others following further : List Node}

theorem refl (nodes : List Node) : ReadAlike nodes nodes :=
  ⟨rfl, rfl, rfl, fun _ => rfl, fun _ => rfl⟩

theorem label_eq {outer : Scope} {kind : Kind} (alike : tag.Alike other)
    (inside : ReadAlike nodes others) (next : BeginAlike following further) :
    Label.ofTag outer further kind other others = Label.ofTag outer following kind tag nodes := by
  have remarked : ((firstTag? further).any fun next =>
      Kind.ofName? next.name = some .documentation) =
        (firstTag? following).any fun next => Kind.ofName? next.name = some .documentation := by
    unfold BeginAlike at next
    cases first : firstTag? further <;> cases second : firstTag? following <;> simp_all
  simp only [Label.ofTag, alike.attributes, alike.declarations, remarked, keptText, inside.direct,
    inside.full]

theorem element (alike : tag.Alike other) (inside : ReadAlike nodes others) :
    Node.ReadAlike (.element tag nodes) (.element other others) where
  name := congrArg some alike.name
  direct := rfl
  full := inside.full
  kept outer following further next := by
    simp only [Particle.ofNode?, alike.name, alike.declarations, inside.label_eq alike next,
      inside.kept]
  visited depth := by simp only [Visit.ofNode, alike.name, inside.visited]

theorem cons {node other : Node} (here : node.ReadAlike other) (behind : ReadAlike nodes others) :
    ReadAlike (node :: nodes) (other :: others) where
  first := by
    have name := here.name
    have first := behind.first
    unfold BeginAlike firstTag? at first ⊢
    rw [List.findSome?_cons, List.findSome?_cons]
    cases one : other.tag? <;> cases two : node.tag? <;> simp_all
  direct := by rw [directText_cons, here.direct, behind.direct, ← directText_cons]
  full := by rw [fullTexts, here.full, behind.full, fullTexts]
  kept outer := by
    rw [Particle.ofNodes, here.kept outer behind.first, behind.kept, Particle.ofNodes]
  visited depth := by rw [Visit.ofNodes, here.visited, behind.visited, Visit.ofNodes]

end ReadAlike

theorem Node.ReadAlike.refl (node : Node) : node.ReadAlike node := by
  cases node with
  | element tag children => exact (Xml.ReadAlike.refl children).element ⟨rfl, rfl, rfl⟩
  | text | comment | instruction => exact ⟨rfl, rfl, rfl, fun _ _ _ _ => rfl, fun _ => rfl⟩

theorem ReadAlike.append_cons {node other : Node} (front back : List Node)
    (here : node.ReadAlike other) : ReadAlike (front ++ node :: back) (front ++ other :: back) := by
  induction front with
  | nil => exact (refl back).cons here
  | cons first rest ih => exact ih.cons (.refl first)

/-- A grammar reads a node as before if the new tag in it says the same. -/
theorem Node.readAlike_retag (found : node.at? address = some (.element tag children))
    (alike : tag.Alike other) : node.ReadAlike (node.retag other address) := by
  induction address generalizing node with
  | nil =>
    cases found
    exact (Xml.ReadAlike.refl children).element alike
  | cons index rest ih =>
    obtain ⟨child, here, below⟩ := Node.at?_cons.1 found
    cases node with
    | element outer content =>
      have here : content[index]? = some child := here
      obtain ⟨back, whole, modified⟩ := exists_modify_eq here
      have inside := Xml.ReadAlike.append_cons (content.take index) back (ih below)
      rw [← whole, ← modified (Node.retag other rest)] at inside
      exact inside.element ⟨rfl, rfl, rfl⟩
    | text | comment | instruction => cases here

/-- An element keeps its name if the new tag in it does. -/
theorem Node.exists_retag_eq {inner : Tag} {inside : List Node}
    (found : (Node.element inner inside).at? address = some (.element tag children))
    (same : other.name = tag.name) : ∃ fresh content,
      (Node.element inner inside).retag other address = .element fresh content ∧
        fresh.name = inner.name := by
  cases address with
  | nil =>
    cases found
    exact ⟨other, children, rfl, same⟩
  | cons index rest => exact ⟨inner, _, rfl, rfl⟩

theorem Document.name_retag {document : Document}
    (found : document.toNode.at? address = some (.element tag children))
    (same : other.name = tag.name) :
    (document.retag other address).root.name = document.root.name := by
  cases address with
  | nil =>
    cases found
    exact same
  | cons index rest => rfl

end Xml

variable {document : Xml.Document} {root : Xml.Node} {nodes others children : List Xml.Node}
  {tag other : Xml.Tag} {address : Address}

/-- The grammar of a document is the same with a tag that says the same. -/
theorem Grammar.ofDocument_retag (limits : Limits)
    (found : document.toNode.at? address = some (.element tag children)) (alike : tag.Alike other) :
    ofDocument limits (document.retag other address) = ofDocument limits document := by
  have same := Xml.Node.readAlike_retag found alike
  rw [← Xml.Document.toNode_retag] at same
  have name := Xml.Document.name_retag found alike.name
  have next : Xml.BeginAlike [] [] := rfl
  simp only [ofDocument, rootParticle, checkRoot, name, same.kept [] next, same.visited]

namespace Site

theorem elementNames_append (nodes others : List Xml.Node) :
    elementNames (nodes ++ others) = elementNames nodes ++ elementNames others :=
  List.filterMap_append

theorem ofNodes_append (parent : Option Xml.Name) (steps : List PathStep)
    (level before : List Xml.Name) (nodes others : List Xml.Node) :
    ofNodes parent steps level before (nodes ++ others) =
      ofNodes parent steps level before nodes ++
        ofNodes parent steps level (before ++ elementNames nodes) others := by
  induction nodes generalizing before with
  | nil => simp [ofNodes, elementNames]
  | cons node rest ih =>
    rw [List.cons_append, ofNodes, ofNodes, ih, List.append_assoc, List.append_assoc,
      ← elementNames_append, List.singleton_append]

theorem ofNodes_element (parent : Option Xml.Name) (steps : List PathStep)
    (level before : List Xml.Name) (tag : Xml.Tag) (children rest : List Xml.Node) :
    ofNodes parent steps level before (.element tag children :: rest) =
      ofNode parent (steps ++ [stepTo tag.name before level]) (.element tag children) ++
        ofNodes parent steps level (before ++ [tag.name]) rest := by
  rw [ofNodes]
  rfl

mutual

theorem length_ofNode (parent : Option Xml.Name) (steps : List PathStep) (node : Xml.Node) :
    (ofNode parent steps node).length = node.elementCount := by
  match node with
  | .element tag children => rw [ofNode, List.length_cons, length_ofNodes, Xml.Node.elementCount]
  | .text _ | .comment _ | .instruction _ _ => rfl

theorem length_ofNodes (parent : Option Xml.Name) (steps : List PathStep)
    (level before : List Xml.Name) (nodes : List Xml.Node) :
    (ofNodes parent steps level before nodes).length = Xml.elementCounts nodes := by
  match nodes with
  | [] => rfl
  | .element tag children :: rest =>
    rw [ofNodes, List.length_append, length_ofNodes, Xml.elementCounts]
    exact congrArg (· + _) (length_ofNode ..)
  | .text _ :: rest | .comment _ :: rest | .instruction _ _ :: rest =>
    rw [ofNodes, List.length_append, length_ofNodes, Xml.elementCounts]
    rfl

end

theorem violation?_congr {parent : Option Xml.Name} {steps : List PathStep}
    (same : elementNames others = elementNames nodes) :
    violation? ⟨tag, others, parent, steps⟩ = violation? ⟨tag, nodes, parent, steps⟩ := by
  simp only [violation?, breach?, patternName?, beginsWithNameClass, same]
  rfl

/-- What the check finds in an element around another one, whatever stands there under its name. -/
theorem exists_violations_around {content inside : List Xml.Node} {inner : Xml.Tag} {index : Nat}
    (outer : Xml.Tag) (here : content[index]? = some (.element inner inside))
    (parent : Option Xml.Name) (steps : List PathStep) :
    ∃ front back further, front.length = 1 + Xml.elementCounts (content.take index) ∧
      ∀ change fresh deeper, change (.element inner inside) = Xml.Node.element fresh deeper →
        fresh.name = inner.name →
          (ofNode parent steps (.element outer (content.modify index change))).map violation? =
            front ++ (ofNode (some outer.name) further (.element fresh deeper)).map violation? ++
              back := by
  obtain ⟨later, whole, modified⟩ := Xml.exists_modify_eq here
  let before := elementNames (content.take index)
  let level := elementNames content
  refine ⟨violation? ⟨outer, content, parent, steps⟩ ::
      (ofNodes (some outer.name) steps level [] (content.take index)).map violation?,
    (ofNodes (some outer.name) steps level (before ++ [inner.name]) later).map violation?,
    steps ++ [stepTo inner.name before level], ?_, fun change fresh deeper changed name => ?_⟩
  · rw [List.length_cons, List.length_map, length_ofNodes, Nat.add_comm]
  · have names : elementNames (content.take index ++ .element fresh deeper :: later) = level := by
      conv_rhs => unfold level; rw [whole]
      rw [elementNames_append, elementNames_append]
      exact congrArg (_ ++ · :: _) name
    rw [modified, changed, ofNode, names, List.map_cons, violation?_congr names, ofNodes_append,
      List.nil_append, ofNodes_element, name]
    simp [before, level]

/-- What the check finds at the elements of a document, with whatever tag on one of them that keeps
its name: only there it can find something else. -/
theorem exists_violations_retag (found : root.at? address = some (.element tag children))
    (parent : Option Xml.Name) (steps : List PathStep) :
    ∃ front back around further, front.length = root.elementsBefore address ∧
      ∀ other : Xml.Tag, other.name = tag.name →
        (ofNode parent steps (root.retag other address)).map violation? =
          front ++ violation? ⟨other, children, around, further⟩ :: back := by
  induction address generalizing root parent steps with
  | nil =>
    cases found
    refine ⟨[], (ofNodes (some tag.name) steps (elementNames children) [] children).map violation?,
      parent, steps, rfl, fun other same => ?_⟩
    rw [Xml.Node.retag, ofNode, same]
    rfl
  | cons index rest ih =>
    obtain ⟨child, here, below⟩ := Xml.Node.at?_cons.1 found
    cases root with
    | element outer content =>
      cases child with
      | element inner inside =>
        have here : content[index]? = some (.element inner inside) := here
        obtain ⟨first, last, deep, count, whole⟩ :=
          exists_violations_around outer here parent steps
        obtain ⟨front, back, around, further, length, split⟩ := ih below (some outer.name) deep
        refine ⟨first ++ front, back ++ last, around, further, ?_, fun other same => ?_⟩
        · simp [Xml.Node.elementsBefore, Xml.Node.children, here, count, length]
        · obtain ⟨fresh, deeper, changed, name⟩ := Xml.Node.exists_retag_eq below same
          rw [Xml.Node.retag, whole _ fresh deeper changed name, ← changed, split other same]
          simp
      | text | comment | instruction => cases rest <;> cases below
    | text | comment | instruction => cases here

end Site

end RelaxDoc
