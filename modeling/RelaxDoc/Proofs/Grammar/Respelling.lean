import RelaxDoc.Proofs.Grammar.Renaming
import RelaxDoc.Proofs.Structure.Retagging

/-! Documents with other names for definitions and references. They are read as the grammar with
these names, as long as there is no white space around the names for reading to trim. -/
namespace RelaxDoc

namespace Xml

/-- The tag with another value for its `name`, if it has one. -/
def Tag.withName (name : String) (tag : Tag) : Tag where
  name := tag.name
  attributes := tag.attributes.map fun a =>
    if a.name = ⟨none, "name"⟩ then ⟨a.name, name⟩ else a
  declarations := tag.declarations

/-- The tag with another value for its `name`, if there is one. -/
def Tag.respell (name? : Option String) (tag : Tag) : Tag := name?.elim tag tag.withName

mutual

/-- The node with new names for elements in it. They are known by their numbers among the kept
elements, which go up from `id`. -/
def Node.respell (name? : Nat → Option String) (id : Nat) : Node → Node
  | .element tag children =>
    match Kind.ofName? tag.name with
    | none => .element tag children
    | some kind =>
      .element (tag.respell (name? id))
        (if kind.holdsText then children else respellAll name? (id + 1) children)
  | .text content => .text content
  | .comment content => .comment content
  | .instruction target content => .instruction target content

/-- The nodes with new names for elements in them, whose numbers go up from `first`. -/
def respellAll (name? : Nat → Option String) (first : Nat) : List Node → List Node
  | [] => []
  | node :: rest =>
    node.respell name? first :: respellAll name? (first + (keptAddresses node).length) rest

end

/-- The document with new names for elements, by their numbers among the kept ones. -/
def Document.respell (name? : Nat → Option String) (document : Document) : Document :=
  match document.toNode.respell name? 0 with
  | .element tag children => ⟨tag, children⟩
  | _ => document

variable {name? : Nat → Option String}

theorem Tag.name_respell (new? : Option String) (tag : Tag) : (tag.respell new?).name = tag.name := by
  cases new? <;> rfl

theorem Tag.declarations_respell (new? : Option String) (tag : Tag) :
    (tag.respell new?).declarations = tag.declarations := by
  cases new? <;> rfl

theorem Node.name_respell (id : Nat) (node : Node) :
    (node.respell name? id).tag?.map Tag.name = node.tag?.map Tag.name := by
  cases node with
  | element tag children =>
    rw [Node.respell]
    cases Kind.ofName? tag.name with
    | none => rfl
    | some kind => exact congrArg some (tag.name_respell _)
  | text | comment | instruction => rfl

theorem Document.toNode_respell (document : Document) :
    (document.respell name?).toNode = document.toNode.respell name? 0 := by
  unfold Document.respell toNode Node.respell
  cases Kind.ofName? document.root.name <;> rfl

theorem Document.name_respell (document : Document) :
    (document.respell name?).root.name = document.root.name := by
  have same : (document.toNode.respell name? 0).tag?.map Tag.name =
      document.toNode.tag?.map Tag.name := document.toNode.name_respell 0
  rw [← toNode_respell] at same
  exact Option.some.inj same

theorem beginAlike_respellAll (first : Nat) (nodes : List Node) :
    BeginAlike nodes (respellAll name? first nodes) := by
  unfold BeginAlike firstTag?
  induction nodes generalizing first with
  | nil => rfl
  | cons node rest ih =>
    have here : (node.respell name? first).tag?.map Tag.name = node.tag?.map Tag.name :=
      node.name_respell first
    rw [respellAll, List.findSome?_cons, List.findSome?_cons]
    cases one : (node.respell name? first).tag? <;> cases two : node.tag? <;> simp_all

end Xml

open Xml (Scope BeginAlike)

/-- The label with another value for `name`, if there is one. -/
def Label.respell (name? : Option String) (label : Label) : Label :=
  { label with attributes := name?.elim label.attributes fun name => putName name label.attributes }

namespace Particle

mutual

/-- The particle with new names for elements in it, whose numbers go up from `id`. -/
def respell (name? : Nat → Option String) (id : Nat) : Particle → Particle
  | mk label children => mk (label.respell (name? id)) (respellAll name? (id + 1) children)

/-- The particles with new names for elements in them, whose numbers go up from `first`. -/
def respellAll (name? : Nat → Option String) (first : Nat) : List Particle → List Particle
  | [] => []
  | particle :: rest => particle.respell name? first :: respellAll name? (first + particle.size) rest

end

variable {name? : Nat → Option String}

mutual

theorem size_respell (id : Nat) (particle : Particle) :
    (particle.respell name? id).size = particle.size := by
  match particle with
  | mk label children => rw [respell, size, size, sizes_respellAll]

theorem sizes_respellAll (first : Nat) (particles : List Particle) :
    sizes (respellAll name? first particles) = sizes particles := by
  match particles with
  | [] => rfl
  | particle :: rest => rw [respellAll, sizes, sizes, size_respell, sizes_respellAll]

end

theorem positions_respellAll (start first : Nat) (particles : List Particle) :
    positions start (respellAll name? first particles) = positions start particles := by
  induction particles generalizing start first with
  | nil => rfl
  | cons particle rest ih => rw [respellAll, positions, positions, size_respell, ih]

/-- The node with another value for its `name`, if there is one. -/
def respelled (name? : Option String) (node : Node) : Node := name?.elim node node.withName

theorem node_respell (parent : Option Nat) (id : Nat) (particle : Particle) :
    node parent id (particle.respell name? id) = respelled (name? id) (node parent id particle) := by
  cases particle with
  | mk label children =>
    rw [respell, node, node, Particle.children, Particle.children, positions_respellAll]
    cases name? id <;> rfl

mutual

theorem nodes_respell (parent : Option Nat) (id : Nat) (particle : Particle) :
    nodes parent id (particle.respell name? id) =
      (nodes parent id particle).mapIdx fun offset => respelled (name? (id + offset)) := by
  match particle with
  | mk label children =>
    have head : node parent id ((mk label children).respell name? id) =
        respelled (name? id) (node parent id (mk label children)) := node_respell ..
    have inside := nodesOfAll_respellAll id (id + 1) children
    rw [respell] at head ⊢
    rw [nodes, nodes, head, inside, List.mapIdx_cons]
    congr 2
    funext offset
    rw [Nat.add_right_comm, Nat.add_assoc]

theorem nodesOfAll_respellAll (parent first : Nat) (particles : List Particle) :
    nodesOfAll parent first (respellAll name? first particles) =
      (nodesOfAll parent first particles).mapIdx fun offset => respelled (name? (first + offset)) := by
  match particles with
  | [] => rfl
  | particle :: rest =>
    have here := nodes_respell (some parent) first particle
    have behind := nodesOfAll_respellAll parent (first + particle.size) rest
    rw [respellAll, nodesOfAll, nodesOfAll, size_respell, here, behind, List.mapIdx_append,
      length_nodes]
    congr 2
    funext offset
    rw [Nat.add_assoc, Nat.add_comm particle.size]

end

end Particle

/-- Names without white space at their ends. -/
def AreTrimmed (name? : Nat → Option String) : Prop :=
  ∀ id, ∀ name ∈ name? id, Text.trimmed name = name

variable {name? : Nat → Option String}

theorem plainAttributes_respell (clean : AreTrimmed name?) (id : Nat) (tag : Xml.Tag) :
    plainAttributes (tag.respell (name? id)).attributes =
      (name? id).elim (plainAttributes tag.attributes) fun name =>
        putName name (plainAttributes tag.attributes) := by
  cases named : name? id with
  | none => rfl
  | some name =>
    have trim := clean id name named
    change plainAttributes (tag.withName name).attributes = putName name _
    unfold plainAttributes putName Xml.Tag.withName
    rw [List.filterMap_map, List.map_filterMap]
    apply List.filterMap_congr
    intro a _
    obtain ⟨⟨uri, localName⟩, value⟩ := a
    cases uri with
    | none => by_cases same : localName = "name" <;> simp [same, trim]
    | some uri => simp

theorem label_respell (clean : AreTrimmed name?) {outer : Scope} {following further : List Xml.Node}
    (next : BeginAlike following further) (id : Nat) (kind : Kind)
    (tag : Xml.Tag) {children others : List Xml.Node}
    (text : keptText kind others = keptText kind children) :
    Label.ofTag outer further kind (tag.respell (name? id)) others =
      (Label.ofTag outer following kind tag children).respell (name? id) := by
  have remarked : ((Xml.firstTag? further).any fun next =>
      Kind.ofName? next.name = some .documentation) =
        (Xml.firstTag? following).any fun next => Kind.ofName? next.name = some .documentation := by
    unfold BeginAlike at next
    cases first : Xml.firstTag? further <;> cases second : Xml.firstTag? following <;> simp_all
  simp only [Label.ofTag, Label.respell, plainAttributes_respell clean, text, remarked,
    Xml.Tag.declarations_respell]

mutual

theorem ofNode?_respell (clean : AreTrimmed name?) (outer : Scope)
    {following further : List Xml.Node} (next : BeginAlike following further) (id : Nat)
    (node : Xml.Node) :
    Particle.ofNode? outer further (node.respell name? id) =
      (Particle.ofNode? outer following node).map (Particle.respell name? id) := by
  match node with
  | .element tag children =>
    rw [Xml.Node.respell]
    cases known : Kind.ofName? tag.name with
    | none => simp [Particle.ofNode?, known]
    | some kind =>
      have inside := ofNodes_respellAll clean (outer.enter tag.declarations) (id + 1) children
      have name := tag.name_respell (name? id)
      have declarations := tag.declarations_respell (name? id)
      simp only [Particle.ofNode?, name, known, declarations, Option.map_some, Particle.respell]
      cases holds : kind.holdsText with
      | true =>
        simp only [if_true, label_respell clean next id kind tag rfl, Particle.respellAll]
      | false =>
        have text {others : List Xml.Node} : keptText kind others = none := by
          simp [keptText, holds]
        rw [if_neg nofun, if_neg nofun, if_neg nofun,
          label_respell clean next id kind tag (text.trans text.symm), inside]
  | .text _ | .comment _ | .instruction _ _ => rfl

theorem ofNodes_respellAll (clean : AreTrimmed name?) (outer : Scope) (first : Nat)
    (nodes : List Xml.Node) :
    Particle.ofNodes outer (Xml.respellAll name? first nodes) =
      Particle.respellAll name? first (Particle.ofNodes outer nodes) := by
  match nodes with
  | [] => rfl
  | node :: rest =>
    have next : BeginAlike rest
        (Xml.respellAll name? (first + (keptAddresses node).length) rest) :=
      Xml.beginAlike_respellAll _ rest
    have here := ofNode?_respell clean outer next first node
    have behind := ofNodes_respellAll clean outer (first + (keptAddresses node).length) rest
    rw [Xml.respellAll, Particle.ofNodes, Particle.ofNodes, here, behind]
    cases kept : Particle.ofNode? outer rest node with
    | none =>
      rw [keptAddresses_of_not_kept kept]
      rfl
    | some particle =>
      have count := (forall₂_quotes outer rest none 0 node kept).length_eq
      rw [Particle.length_nodes] at count
      rw [count]
      rfl

end

mutual

theorem Visit.ofNode_respell (depth id : Nat) (node : Xml.Node) :
    Visit.ofNode depth (node.respell name? id) = Visit.ofNode depth node := by
  match node with
  | .element tag children =>
    rw [Xml.Node.respell]
    cases known : Kind.ofName? tag.name with
    | none => rfl
    | some kind =>
      have inside := Visit.ofNodes_respellAll (depth + 1) (id + 1) children
      simp only [Visit.ofNode, Xml.Tag.name_respell, known]
      cases kind.holdsText with
      | true => rfl
      | false => exact congrArg _ inside
  | .text _ | .comment _ | .instruction _ _ => rfl

theorem Visit.ofNodes_respellAll (depth first : Nat) (nodes : List Xml.Node) :
    Visit.ofNodes depth (Xml.respellAll name? first nodes) = Visit.ofNodes depth nodes := by
  match nodes with
  | [] => rfl
  | node :: rest =>
    rw [Xml.respellAll, Visit.ofNodes, Visit.ofNodes, Visit.ofNode_respell,
      Visit.ofNodes_respellAll]

end

namespace Grammar

variable {g : Grammar} {names : Renaming} {limits : Limits} {document : Xml.Document}

/-- The grammar of an arena depends on the nodes only. -/
theorem ofArena_congr {a b : Arena} (same : a.nodes = b.nodes) : ofArena a = ofArena b := by
  obtain ⟨_, _, _, _, _⟩ := a
  obtain ⟨_, _, _, _, _⟩ := b
  cases same
  rfl

/-- A document with new names for definitions and references is read as the grammar with these
names. -/
theorem ofDocument_respell (read : ofDocument limits document = .ok g)
    (clean : AreTrimmed (g.newName? names)) :
    ofDocument limits (document.respell (g.newName? names)) = .ok (g.renamed names) := by
  obtain ⟨root, admitted, particle, kept, same⟩ := ofDocument_eq_ok_iff.1 read
  have next : Xml.BeginAlike [] [] := rfl
  refine ofDocument_eq_ok_iff.2 ⟨?_, ?_, particle.respell (g.newName? names) 0, ?_, ?_⟩
  · rw [checkRoot, Xml.Document.name_respell]
    exact root
  · rw [Xml.Document.toNode_respell, Visit.ofNode_respell]
    exact admitted
  · rw [Xml.Document.toNode_respell, ofNode?_respell clean [] next, kept]
    rfl
  · subst same
    apply ofArena_congr
    apply congrArg List.toArray
    rw [Particle.nodes_respell]
    have count : particle.grammar.size = (Particle.nodes none 0 particle).length := rfl
    apply List.ext_getElem
    · simp [count]
    · intro id inside _
      rw [List.length_mapIdx] at inside
      have here : particle.grammar.node id = (Particle.nodes none 0 particle)[id] := by
        change nodeAt (Particle.nodes none 0 particle).toArray id = _
        rw [Particle.nodeAt_eq, List.getElem?_eq_getElem inside, Option.getD_some]
      simp [renamedNode, here, Particle.respelled]

end Grammar

end RelaxDoc
