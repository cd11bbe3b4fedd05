import RelaxDoc.Proofs.Grammar.Scopes
import RelaxDoc.Proofs.Record.Numbering
import RelaxDoc.Proofs.Renumbering
import RelaxDoc.Proofs.Search.Mirrors

/-! Grammars whose nodes say the same under other numbers. The records of their elements are the
same, up to the numbers. -/
namespace RelaxDoc

/-- The record with other ids for its element and for the children. -/
def ElementRecord.renumber (renumber : Nat → Nat) (record : ElementRecord) : ElementRecord where
  id := renumber record.id
  name := record.name
  uri := record.uri
  description := record.description
  children := record.children.map fun child => ⟨renumber child.id, child.name⟩
  attributes := record.attributes

/-- The source with other numbers for its nodes. -/
def TypeSource.map (image : Nat → Nat) : TypeSource → TypeSource
  | .nothing => .nothing
  | .data id => .data (image id)
  | .text => .text
  | .choice id => .choice (image id)
  | .value id => .value (image id)
  | .unknown => .unknown

/-- The node of a source with its kind. -/
def TypeSource.node? : TypeSource → Option (Nat × Kind)
  | .data id => some (id, .data)
  | .choice id => some (id, .choice)
  | .value id => some (id, .value)
  | _ => none

namespace Grammar

variable {g h : Grammar} {image : Nat → Nat} {rekey : DefineKey → DefineKey} {id : Nat}

/-- What a search finds stands in a node other than a grammar at the root. -/
theorem exists_parent_of_reaches (loaded : g.Loaded) {through : Nat → Prop} {start : Nat}
    (inner : g.IsInner start) (path : g.Reaches through (g.contentChildren start) id) :
    ∃ outer, g.parent? id = some outer ∧ g.IsInner outer := by
  induction path with
  | top member =>
    exact ⟨start, loaded.mem_children_iff.1 (List.mem_of_mem_filter member), inner⟩
  | @step further id _ _ member ih =>
    obtain ⟨outer, above, _⟩ := ih
    have among := loaded.mem_children_iff.2 above
    by_cases refers : (g.kind further).isReference = true
    · rw [inside, if_pos refers] at member
      obtain ⟨define, child, resolves⟩ := mem_deref_iff.1 member
      have kind : g.kind define ≠ .grammar := by rw [resolves.kind]; decide
      exact ⟨define, loaded.mem_children_iff.1 child, isInner_of_kind kind⟩
    · rw [inside, if_neg refers] at member
      exact ⟨further, loaded.mem_children_iff.1 member, isInner_of_child among⟩

/-- The node that decides on the type of an attribute is found by a search for its kind. -/
theorem mem_descend_of_typeSource {found : Nat} {kind : Kind}
    (source : (g.typeSource id).node? = some (found, kind)) : found ∈ g.descend id kind := by
  have first {target : Kind} {found : Nat} (here : g.firstBelow? id target = some found) :
      found ∈ g.descend id target := List.mem_of_mem_head? here
  unfold typeSource at source
  split at source
  · cases source
  · split at source
    · rename_i here
      cases source
      exact first here
    · split at source
      · cases source
      · split at source
        · rename_i here
          cases source
          exact first here
        · split at source
          · rename_i here
            cases source
            exact first here
          · cases source

/-- A grammar that mirrors another and whose nodes say the same, but that definitions and references
may have other names. -/
structure Echoes (g h : Grammar) (image : Nat → Nat) (rekey : DefineKey → DefineKey) : Prop
    extends Mirrors g h image rekey where
  attributes : ∀ id, g.kind id ≠ .define → (g.kind id).isReference = false →
    (h.node (image id)).attributes = (g.node id).attributes
  ns : ∀ id, h.ns? (image id) = g.ns? id
  text : ∀ id, (h.node (image id)).text = (g.node id).text
  prefixes : ∀ id, (h.node (image id)).prefixes = (g.node id).prefixes
  remark : ∀ id outer, g.parent? id = some outer → g.IsInner outer →
    (h.node (image id)).remark = (g.node id).remark.map image

/-- The ids that elements have under other numbers for the nodes. -/
def renumbered (g h : Grammar) (image : Nat → Nat) : Nat → Nat :=
  renumbering g.elementIndex.nodes h.elementIndex.nodes image

namespace Echoes

variable (echoes : Echoes g h image rekey)

include echoes

theorem attribute? (name : String) (define : g.kind id ≠ .define)
    (refers : (g.kind id).isReference = false) :
    (h.node (image id)).attribute? name = (g.node id).attribute? name := by
  unfold Node.attribute?
  rw [echoes.attributes id define refers]

theorem name? (define : g.kind id ≠ .define) (refers : (g.kind id).isReference = false) :
    (h.node (image id)).name? = (g.node id).name? := echoes.attribute? "name" define refers

theorem name?_of_pattern (pattern : g.kind id = .element ∨ g.kind id = .attr) :
    (h.node (image id)).name? = (g.node id).name? := by
  apply echoes.name?
  · rcases pattern with kind | kind <;> rw [kind] <;> decide
  · rcases pattern with kind | kind <;> rw [kind] <;> rfl

theorem content (id : Nat) : (h.node (image id)).content = (g.node id).content := by
  unfold Node.content
  rw [echoes.text]

theorem lineOf (id : Nat) : h.lineOf (image id) = g.lineOf id := by
  unfold Arena.lineOf
  rw [echoes.content]

theorem description (inner : g.IsInner id) : h.description (image id) = g.description id := by
  unfold Arena.description Arena.documentation?
  rw [echoes.find?_children inner fun kind => kind = .documentation, Option.map_map]
  congr 2
  funext child
  exact echoes.lineOf child

theorem nameNode? (inner : g.IsInner id) :
    h.nameNode? (image id) = (g.nameNode? id).map image := by
  unfold Arena.nameNode?
  rw [echoes.nameClass? inner, Option.filter_map]
  congr 2
  funext child
  simp [echoes.kind]

theorem scopes (id : Nat) : h.scopes (image id) = g.scopes id := by
  unfold Arena.scopes
  rw [echoes.ancestors, ← List.map_cons, List.map_map]
  congr 1
  funext node
  exact echoes.prefixes node

section Pattern

variable (pattern : g.kind id = .element ∨ g.kind id = .attr)

include pattern

omit echoes in
theorem isInner_of_pattern : g.IsInner id :=
  isInner_of_kind (by rcases pattern with kind | kind <;> rw [kind] <;> decide)

theorem declaredName? : h.declaredName? (image id) = g.declaredName? id := by
  unfold Arena.declaredName?
  rw [echoes.name?_of_pattern pattern, echoes.nameNode? (isInner_of_pattern pattern),
    Option.map_map]
  have same : (fun child => (h.node child).content) ∘ image = fun child => (g.node child).content :=
    funext echoes.content
  rw [same]

theorem qualifiedNamespace? : h.qualifiedNamespace? (image id) = g.qualifiedNamespace? id := by
  unfold Arena.qualifiedNamespace?
  rw [echoes.declaredName? pattern, echoes.nameNode? (isInner_of_pattern pattern), Option.getD_map,
    echoes.scopes]

theorem nearestNs? : h.nearestNs? (image id) = g.nearestNs? id := by
  unfold Arena.nearestNs?
  have same : h.ns? ∘ image = g.ns? := funext echoes.ns
  rw [echoes.nameNode? (isInner_of_pattern pattern), echoes.kind, echoes.ancestors, echoes.ns,
    Option.bind_map, List.findSome?_map, same]

theorem namespaceOf? : h.namespaceOf? (image id) = g.namespaceOf? id := by
  unfold Arena.namespaceOf?
  rw [echoes.qualifiedNamespace? pattern, echoes.nearestNs? pattern]

end Pattern

theorem attributeName (attr : g.kind id = .attr) :
    h.attributeName (image id) = g.attributeName id := by
  unfold Arena.attributeName
  rw [echoes.declaredName? (.inr attr)]

/-- An element without a name takes that of a definition, so the definitions have to keep theirs. -/
theorem elementName
    (names : ∀ id, g.kind id = .define → (h.node (image id)).name? = (g.node id).name?)
    (element : g.kind id = .element) : h.elementName (image id) = g.elementName id := by
  unfold Arena.elementName
  rw [echoes.declaredName? (.inl element), echoes.enclosing?]
  cases found : g.enclosing? id .define with
  | none => rfl
  | some define =>
    have name := names define (Arena.kind_of_enclosing? found)
    rw [Option.map_some, Option.bind_some, Option.bind_some, name]

theorem firstBelow? (inner : g.IsInner id) (target : Kind) :
    h.firstBelow? (image id) target = (g.firstBelow? id target).map image := by
  unfold Grammar.firstBelow?
  rw [echoes.descend inner, List.head?_map]

theorem hasContent (inner : g.IsInner id) : h.hasContent (image id) = g.hasContent id := by
  unfold Grammar.hasContent
  rw [echoes.contentChildren inner, List.any_map]
  congr 1
  funext child
  simp [echoes.kind]

theorem typeSource (inner : g.IsInner id) :
    h.typeSource (image id) = (g.typeSource id).map image := by
  unfold Grammar.typeSource
  rw [echoes.hasContent inner, echoes.firstBelow? inner, echoes.firstBelow? inner,
    echoes.firstBelow? inner, echoes.firstBelow? inner]
  cases g.hasContent id with
  | false => rfl
  | true =>
    cases g.firstBelow? id .data with
    | some data => rfl
    | none =>
      cases g.firstBelow? id .text with
      | some text => rfl
      | none =>
        cases g.firstBelow? id .choice with
        | some choice => rfl
        | none => cases g.firstBelow? id .value <;> rfl

theorem params (inner : g.IsInner id) : h.params (image id) = g.params id := by
  unfold Grammar.params
  rw [echoes.children id inner, List.filter_map, List.map_map]
  have same : (fun child => decide (h.kind child = .param)) ∘ image =
      fun child => decide (g.kind child = .param) := by
    funext child
    simp [echoes.kind]
  rw [same]
  apply List.map_congr_left
  intro child member
  have kind : g.kind child = .param := by simpa using (List.mem_filter.1 member).2
  have name : (h.node (image child)).name? = (g.node child).name? :=
    echoes.name? (by rw [kind]; decide) (by rw [kind]; rfl)
  simp [name, echoes.content]

theorem datatype (data : g.kind id = .data) : h.datatype (image id) = g.datatype id := by
  have inner : g.IsInner id := isInner_of_kind (by rw [data]; decide)
  unfold Grammar.datatype
  rw [echoes.attribute? "type" (by rw [data]; decide) (by rw [data]; rfl), echoes.description inner,
    echoes.params inner]

theorem enumValue {outer : Nat} (above : g.parent? id = some outer) (inner : g.IsInner outer) :
    h.enumValue (image id) = g.enumValue id := by
  unfold Grammar.enumValue
  rw [echoes.content, echoes.remark id outer above inner, Option.map_map]
  have same : h.lineOf ∘ image = g.lineOf := funext echoes.lineOf
  rw [same]

theorem enumValue_of_mem_descend (loaded : g.Loaded) {start : Nat} (inner : g.IsInner start)
    {target : Kind} (member : id ∈ g.descend start target) :
    h.enumValue (image id) = g.enumValue id := by
  obtain ⟨outer, above, within⟩ :=
    exists_parent_of_reaches loaded inner (mem_descend_iff.1 member).2
  exact echoes.enumValue above within

theorem attributeType (loaded : g.Loaded) (inner : g.IsInner id) :
    h.attributeType (image id) = g.attributeType id := by
  unfold Grammar.attributeType
  rw [echoes.typeSource inner]
  have found {node : Nat} {kind : Kind} (source : (g.typeSource id).node? = some (node, kind)) :
      node ∈ g.descend id kind := mem_descend_of_typeSource source
  cases source : g.typeSource id with
  | nothing | text | unknown => rfl
  | data data =>
    rw [source] at found
    have kind := (mem_descend_iff.1 (found rfl)).1
    exact congrArg _ (echoes.datatype kind)
  | choice choice =>
    rw [source] at found
    have kind := (mem_descend_iff.1 (found rfl)).1
    have within : g.IsInner choice := isInner_of_kind (by rw [kind]; decide)
    change AttributeType.enumeration _ = .enumeration _
    rw [echoes.descend within, List.map_map]
    congr 1
    apply List.map_congr_left
    intro value member
    exact echoes.enumValue_of_mem_descend loaded within member
  | value value =>
    rw [source] at found
    have same := echoes.enumValue_of_mem_descend loaded inner (found rfl)
    change AttributeType.enumeration [_] = .enumeration [_]
    rw [same]

theorem attributeRecord (loaded : g.Loaded) (attr : g.kind id = .attr) :
    h.attributeRecord (image id) = g.attributeRecord id := by
  have inner : g.IsInner id := isInner_of_pattern (.inr attr)
  unfold Grammar.attributeRecord useOf
  rw [echoes.attributeName attr, echoes.namespaceOf? (.inr attr), echoes.description inner,
    echoes.climb, echoes.attributeType loaded inner]

theorem elementIndex_perm :
    h.elementIndex.nodes.Perm (g.elementIndex.nodes.map image) := by
  have injective := echoes.bijective.injective
  have nodup (g : Grammar) : g.elementIndex.nodes.Nodup := (g.ofKind_sorted .element).nodup
  have mem_iff (g : Grammar) (id : Nat) : id ∈ g.elementIndex.nodes ↔ g.kind id = .element :=
    g.mem_ofKind (by decide)
  rw [List.perm_ext_iff_of_nodup (nodup h) ((nodup g).map injective)]
  intro id
  obtain ⟨id, rfl⟩ := echoes.bijective.surjective id
  rw [List.mem_map_of_injective injective, mem_iff, mem_iff, echoes.kind]

theorem nodeOf?_renumbered (number : Nat) :
    h.elementIndex.nodeOf? (renumbered g h image number) =
      (g.elementIndex.nodeOf? number).map image :=
  getElem?_renumbering echoes.elementIndex_perm number

theorem renumbered_bijective : Function.Bijective (renumbered g h image) :=
  renumbering_bijective echoes.elementIndex_perm (g.ofKind_sorted .element).nodup
    echoes.bijective.injective

theorem idOf?_image (element : g.kind id = .element) : h.elementIndex.idOf? (image id) =
    (g.elementIndex.idOf? id).map (renumbered g h image) := by
  obtain ⟨number, numbered⟩ := ElementIndex.exists_idOf? element
  have found := echoes.nodeOf?_renumbered number
  rw [show g.elementIndex.nodeOf? number = some id from ElementIndex.idOf?_eq_some_iff.1 numbered]
    at found
  rw [show g.elementIndex.idOf? id = some number from numbered]
  exact ElementIndex.idOf?_eq_some_iff.2 found

section Records

variable (loaded : g.Loaded)
  (names : ∀ id, g.kind id = .define → (h.node (image id)).name? = (g.node id).name?)

include loaded names

/-- The record of an element is the same, up to the ids. -/
theorem elementRecord (element : g.kind id = .element) :
    h.elementRecord h.elementIndex (image id) =
      (g.elementRecord g.elementIndex id).renumber (renumbered g h image) := by
  have inner : g.IsInner id := isInner_of_pattern (.inl element)
  obtain ⟨number, numbered⟩ := ElementIndex.exists_idOf? element
  have numbered : g.elementIndex.idOf? id = some number := numbered
  have children : h.childRefs h.elementIndex (image id) =
      (g.childRefs g.elementIndex id).map fun child =>
        ⟨renumbered g h image child.id, child.name⟩ := by
    unfold childRefs
    rw [echoes.descend inner, List.filterMap_map, List.map_filterMap]
    apply List.filterMap_congr
    intro child member
    have kind := (mem_descend_iff.1 member).1
    simp only [Function.comp_apply, echoes.idOf?_image kind, echoes.elementName names kind,
      Option.map_map]
    rfl
  have attributes : (h.descend (image id) .attr).map h.attributeRecord =
      (g.descend id .attr).map g.attributeRecord := by
    rw [echoes.descend inner, List.map_map]
    apply List.map_congr_left
    intro attr member
    exact echoes.attributeRecord loaded (mem_descend_iff.1 member).1
  unfold Grammar.elementRecord ElementRecord.renumber
  rw [children, attributes, echoes.elementName names element, echoes.namespaceOf? (.inl element),
    echoes.description inner, echoes.idOf?_image element, numbered]
  rfl

/-- The documentation has the same records, up to the ids. -/
theorem elements_renumbered (number : Nat) :
    (Documentation.ofGrammar h).elements[renumbered g h image number]? =
      (Documentation.ofGrammar g).elements[number]?.map
        (ElementRecord.renumber (renumbered g h image)) := by
  rw [Documentation.getElem?_ofGrammar, Documentation.getElem?_ofGrammar,
    echoes.nodeOf?_renumbered]
  cases found : g.elementIndex.nodeOf? number with
  | none => rfl
  | some node =>
    have element := ElementIndex.exists_nodeOf?_iff_element.1 ⟨_, found⟩
    exact congrArg some (echoes.elementRecord loaded names element)

end Records

end Echoes

end Grammar

end RelaxDoc
