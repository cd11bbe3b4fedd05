import RelaxDoc.Proofs.Grammar.Labels
import RelaxDoc.Proofs.Search.Mirrors
import RelaxDoc.Proofs.Structure.Retagging

/-! Documents with other attributes on one element. A tag that keeps its name and its declarations
leaves everything a grammar reads as it is, but for the attributes of the one node. -/
namespace RelaxDoc

open Xml (Address BeginAlike Scope)

namespace Xml

/-- A node with the same elements, by their names, and with the same text as another. -/
structure Node.Resembles (node other : Node) : Prop where
  name : other.tag?.map Tag.name = node.tag?.map Tag.name
  direct : directText [other] = directText [node]
  full : other.fullText = node.fullText
  visited : ∀ depth, Visit.ofNode depth other = Visit.ofNode depth node
  kept : keptAddresses other = keptAddresses node

/-- Nodes with the same elements, by their names, and with the same text as others. -/
structure Resemble (nodes others : List Node) : Prop where
  names : others.map (fun other => other.tag?.map Tag.name) =
    nodes.map fun node => node.tag?.map Tag.name
  direct : directText others = directText nodes
  full : fullTexts others = fullTexts nodes
  visited : ∀ depth, Visit.ofNodes depth others = Visit.ofNodes depth nodes
  kept : ∀ index, keptAddressesOfAll index others = keptAddressesOfAll index nodes

namespace Resemble

variable {nodes others : List Node} {node other : Node}

theorem refl (nodes : List Node) : Resemble nodes nodes :=
  ⟨rfl, rfl, rfl, fun _ => rfl, fun _ => rfl⟩

theorem cons (here : node.Resembles other) (behind : Resemble nodes others) :
    Resemble (node :: nodes) (other :: others) where
  names := by rw [List.map_cons, List.map_cons, here.name, behind.names]
  direct := by rw [directText_cons, here.direct, behind.direct, ← directText_cons]
  full := by rw [fullTexts, here.full, behind.full, fullTexts]
  visited depth := by rw [Visit.ofNodes, here.visited, behind.visited, Visit.ofNodes]
  kept index := by rw [keptAddressesOfAll, here.kept, behind.kept, keptAddressesOfAll]

theorem append_cons (front back : List Node) (here : node.Resembles other) :
    Resemble (front ++ node :: back) (front ++ other :: back) := by
  induction front with
  | nil => exact (refl back).cons here
  | cons first rest ih => exact ih.cons ⟨rfl, rfl, rfl, fun _ => rfl, rfl⟩

/-- Changing a node to one that resembles it gives nodes that resemble what was there. -/
theorem modify {index : Nat} {change : Node → Node} (found : nodes[index]? = some node)
    (here : node.Resembles (change node)) : Resemble nodes (nodes.modify index change) := by
  obtain ⟨back, whole, modified⟩ := exists_modify_eq found
  have alike := append_cons (nodes.take index) back here
  rwa [← whole, ← modified change] at alike

theorem element {tag fresh : Tag} (name : fresh.name = tag.name) (inside : Resemble nodes others) :
    Node.Resembles (.element tag nodes) (.element fresh others) where
  name := congrArg some name
  direct := rfl
  full := inside.full
  visited depth := by simp only [Visit.ofNode, name, inside.visited]
  kept := by simp only [keptAddresses, name, inside.kept]

theorem beginAlike (alike : Resemble nodes others) (count : Nat) :
    BeginAlike (nodes.drop count) (others.drop count) := by
  have first (list : List Node) : (firstTag? list).map Tag.name =
      (list.map fun node => node.tag?.map Tag.name).findSome? id := by
    rw [firstTag?, List.map_findSome?, List.findSome?_map]
    rfl
  rw [BeginAlike, first, first, List.map_drop, List.map_drop, alike.names]

theorem keptText (alike : Resemble nodes others) (kind : Kind) :
    keptText kind others = keptText kind nodes := by
  simp only [RelaxDoc.keptText, alike.direct, alike.full]

end Resemble

namespace Node

theorem ofNode?_eq_bind (node : Node) :
    Kind.ofNode? node = (node.tag?.map Tag.name).bind Kind.ofName? := by
  cases node <;> rfl

variable {node : Node} {content children following further : List Node} {tag other : Tag}
  {address : Address}

theorem resembles_retag (found : node.at? address = some (.element tag children))
    (name : other.name = tag.name) : node.Resembles (node.retag other address) := by
  induction address generalizing node with
  | nil =>
    cases found
    exact (Resemble.refl children).element name
  | cons index rest ih =>
    obtain ⟨child, here, below⟩ := at?_cons.1 found
    cases node with
    | element outer content =>
      exact (Resemble.modify here (ih below)).element rfl
    | text | comment | instruction => cases here

/-- What comes behind an element matters by the name of its first element. -/
theorem labelAt?_congr (next : BeginAlike following further) (outer : Scope) (address : Address) :
    node.labelAt? outer further address = node.labelAt? outer following address := by
  cases address with
  | nil =>
    cases node with
    | element tag children =>
      have same (kind : Kind) : Label.ofTag outer further kind tag children =
          Label.ofTag outer following kind tag children :=
        (Xml.ReadAlike.refl children).label_eq ⟨rfl, rfl, rfl⟩ next
      simp only [labelAt?, same]
    | text | comment | instruction => rfl
  | cons step rest => exact labelAt?_cons step rest

end Node

end Xml

/-- The label with other attributes. -/
def Label.withAttributes (attributes : List (String × String)) (label : Label) : Label :=
  { label with attributes := attributes }

/-- A node that says the same as another but for the attributes is the same but for them, if it
stands in the same place. -/
theorem Node.Tells.eq_of_withAttributes {node other : Node} {label : Label}
    {attributes : List (String × String)} (tells : node.Tells label)
    (retold : other.Tells (label.withAttributes attributes)) (parent : other.parent = node.parent)
    (children : other.children = node.children)
    (remark : other.remark.isSome = node.remark.isSome → other.remark = node.remark) :
    other = { node with attributes := attributes } := by
  have kind : other.kind = node.kind := retold.kind.trans tells.kind.symm
  have text : other.text = node.text := retold.text.trans tells.text.symm
  have prefixes : other.prefixes = node.prefixes := retold.prefixes.trans tells.prefixes.symm
  have said : other.attributes = attributes := retold.attributes
  have remark := remark (retold.remark.trans tells.remark.symm)
  cases other
  cases node
  simp_all

namespace Xml.Node

variable {node : Node} {children following further : List Node} {tag other : Tag}
  {address : Address}

/-- With another tag that keeps its name and its declarations the elements say what they said, the
one with that tag up to its attributes. -/
theorem labelAt?_retag (found : node.at? address = some (.element tag children))
    (name : other.name = tag.name) (declarations : other.declarations = tag.declarations)
    (outer : Scope) (following : List Node) (place : Address) :
    (node.retag other address).labelAt? outer following place =
      (node.labelAt? outer following place).map fun label =>
        if place = address then label.withAttributes (plainAttributes other.attributes)
        else label := by
  induction address generalizing node outer following place with
  | nil =>
    cases found
    cases place with
    | nil =>
      simp only [retag, labelAt?, name, Label.ofTag, declarations]
      cases Kind.ofName? tag.name <;> rfl
    | cons step more => simp [retag, labelAt?, declarations]
  | cons index rest ih =>
    obtain ⟨child, here, below⟩ := at?_cons.1 found
    cases node with
    | element around content =>
      have here : content[index]? = some child := here
      have inside := Resemble.modify here (resembles_retag below name)
      cases place with
      | nil =>
        simp only [retag, labelAt?, Label.ofTag, inside.keptText]
        cases Kind.ofName? around.name <;> rfl
      | cons step more =>
        have later := inside.beginAlike (step + 1)
        simp only [retag, labelAt?, List.getElem?_modify, List.cons.injEq]
        by_cases same : index = step
        · subst same
          simp [here, ih below, labelAt?_congr later]
        · cases content[step]? with
          | none => simp
          | some inner => simp [same, Ne.symm same, labelAt?_congr later]
    | text | comment | instruction => cases here

end Xml.Node

theorem Particle.exists_ofNode?_iff {outer : Scope} {following : List Xml.Node} {node : Xml.Node} :
    (∃ particle, ofNode? outer following node = some particle) ↔
      ∃ kind, Kind.ofNode? node = some kind := by
  cases node with
  | element tag children =>
    rw [ofNode?, Kind.ofNode?]
    cases Kind.ofName? tag.name <;> simp
  | text | comment | instruction => simp [ofNode?, Kind.ofNode?]

/-- A grammar with the nodes of another, up to the attributes of one. -/
structure Grammar.Amends (g h : Grammar) (edited : Nat) (attributes : List (String × String)) :
    Prop where
  size : h.size = g.size
  node : ∀ id, id ≠ edited → h.node id = g.node id
  edited : h.node edited = { g.node edited with attributes := attributes }

namespace Grammar

variable {g h : Grammar} {limits : Limits} {document : Xml.Document} {tag other : Xml.Tag}
  {children : List Xml.Node} {address : Address} {edited id : Nat}

/-- A document with another tag on an element can be read, if the tag keeps the name. -/
theorem exists_read_retag (read : ofDocument limits document = .ok g)
    (found : document.toNode.at? address = some (.element tag children))
    (name : other.name = tag.name) :
    ∃ h, ofDocument limits (document.retag other address) = .ok h := by
  obtain ⟨root, admitted, particle, kept, rfl⟩ := ofDocument_eq_ok_iff.1 read
  have alike := Xml.Node.resembles_retag found name
  rw [← Xml.Document.toNode_retag] at alike
  have top := Xml.Document.name_retag found name
  have known :
      Kind.ofNode? (document.retag other address).toNode = Kind.ofNode? document.toNode := by
    rw [Xml.Node.ofNode?_eq_bind, alike.name, ← Xml.Node.ofNode?_eq_bind]
  have kind := Particle.exists_ofNode?_iff.1 ⟨particle, kept⟩
  rw [← known] at kind
  obtain ⟨fresh, also⟩ := Particle.exists_ofNode?_iff.2 kind
  refine ⟨_, ofDocument_eq_ok_iff.2 ⟨?_, ?_, fresh, also, rfl⟩⟩
  · rw [checkRoot, top]
    exact root
  · rw [alike.visited]
    exact admitted

section Enumerations

variable {root tree : Xml.Node} {addresses : List Address} (one : g.Enumerates root addresses)
  (another : h.Enumerates tree addresses)

include one another

/-- Nodes with the same addresses have the same parents. -/
theorem Enumerates.parent?_congr (id : Nat) : h.parent? id = g.parent? id := by
  have size : h.size = g.size := another.length_eq.symm.trans one.length_eq
  rcases Nat.lt_or_ge id g.size with inside | beyond
  · obtain ⟨address, found⟩ := one.exists_address inside
    rcases List.eq_nil_or_concat address with rfl | ⟨around, step, rfl⟩
    · rw [one.parent?_of_nil found, another.parent?_of_nil found]
    · rw [List.concat_eq_append] at found
      rw [one.parent?_eq found, another.parent?_eq found]
  · rw [Arena.parent?, Arena.parent?, node_of_size_le beyond, node_of_size_le (size ▸ beyond)]

theorem Enumerates.children_congr (loaded : g.Loaded) (also : h.Loaded) (id : Nat) :
    h.children id = g.children id := by
  apply List.Pairwise.eq_of_mem_iff (h.children_sorted id) (g.children_sorted id)
  intro child
  rw [loaded.mem_children_iff, also.mem_children_iff, one.parent?_congr another]

end Enumerations

/-- Where the remark of a node stands is known from the node. -/
theorem remark_congr (read : ofDocument limits document = .ok g) {fresh : Xml.Document}
    (also : ofDocument limits fresh = .ok h)
    (remarked : (h.node id).remark.isSome = (g.node id).remark.isSome) :
    (h.node id).remark = (g.node id).remark := by
  cases one : (g.node id).remark with
  | none => simpa [one] using remarked
  | some remark =>
    rw [one] at remarked
    obtain ⟨another, found⟩ := Option.isSome_iff_exists.1 remarked
    rw [found, (remark_of_read read one).1, (remark_of_read also found).1]

/-- The document with another tag on a kept element, if the tag keeps the name and the declarations,
is read as the grammar with the attributes of the tag at the node. -/
theorem amends_retag (read : ofDocument limits document = .ok g)
    (listed : (keptAddresses document.toNode)[edited]? = some address)
    (found : document.toNode.at? address = some (.element tag children))
    (name : other.name = tag.name) (declarations : other.declarations = tag.declarations)
    (also : ofDocument limits (document.retag other address) = .ok h) :
    g.Amends h edited (plainAttributes other.attributes) := by
  have one := enumerates_of_read read
  have another := enumerates_of_read also
  rw [Xml.Document.toNode_retag, (Xml.Node.resembles_retag found name).kept] at another
  have size : h.size = g.size := another.length_eq.symm.trans one.length_eq
  have amended {id : Nat} {place : Address}
      (there : (keptAddresses document.toNode)[id]? = some place) : h.node id =
        if place = address then { g.node id with attributes := plainAttributes other.attributes }
        else g.node id := by
    obtain ⟨label, said, tells⟩ := quotes_of_read read there
    obtain ⟨fresh, quoted, retold⟩ : Quotes [] [] (document.retag other address).toNode place
        (h.node id) := by
      apply quotes_of_read also
      rwa [Xml.Document.toNode_retag, (Xml.Node.resembles_retag found name).kept]
    rw [Xml.Document.toNode_retag, Xml.Node.labelAt?_retag found name declarations, said] at quoted
    have rest {attributes : List (String × String)}
        (retold : (h.node id).Tells (label.withAttributes attributes)) :
        h.node id = { g.node id with attributes := attributes } :=
      tells.eq_of_withAttributes retold (one.parent?_congr another id)
        (one.children_congr another ⟨_, _, read⟩ ⟨_, _, also⟩ id) (remark_congr read also)
    cases quoted
    split at retold
    · rename_i same
      rw [if_pos same]
      exact rest retold
    · rename_i different
      rw [if_neg different, @rest label.attributes retold, ← tells.attributes]
  refine ⟨size, fun id different => ?_, ?_⟩
  · rcases Nat.lt_or_ge id g.size with inside | beyond
    · obtain ⟨place, there⟩ := one.exists_address inside
      rw [amended there, if_neg]
      rintro rfl
      exact different ((one.idxOf_eq there).symm.trans (one.idxOf_eq listed))
    · rw [node_of_size_le beyond, node_of_size_le (size ▸ beyond)]
  · rw [amended listed, if_pos rfl]

end Grammar
end RelaxDoc
