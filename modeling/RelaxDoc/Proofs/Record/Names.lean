import RelaxDoc.Proofs.Grammar.Respelling

/-! The documentation of a grammar whose definitions have new names. It tells of a name only where an
element without one goes by that of a definition. -/
namespace RelaxDoc

/-- The record with other names for its element and for the children, by their ids. -/
def ElementRecord.rename (name : Nat → String) (record : ElementRecord) : ElementRecord :=
  { record with
    name := name record.id
    children := record.children.map fun child => ⟨child.id, name child.id⟩ }

/-- The documentation with other names for the elements, by their ids. -/
def Documentation.rename (name : Nat → String) (documentation : Documentation) : Documentation :=
  ⟨documentation.elements.map (ElementRecord.rename name)⟩

namespace Grammar

variable {g : Grammar} {names : Renaming} {node : Nat}

/-- The name an element goes by when definitions have new names: the declared one, or the new name
of the nearest definition around it. -/
def newElementName (g : Grammar) (names : Renaming) (node : Nat) : String :=
  match g.declaredName? node with
  | some name => name
  | none => ((g.enclosing? node .define).bind (g.newName? names)).getD anyName

/-- The name that the element with an id goes by when definitions have new names. -/
def newNameOf (g : Grammar) (names : Renaming) (id : Nat) : String :=
  ((g.elementIndex.nodeOf? id).map (g.newElementName names)).getD anyName

theorem newNameOf_eq {id : Nat} (found : g.elementIndex.nodeOf? id = some node) :
    g.newNameOf names id = g.newElementName names node := by
  rw [newNameOf, found]
  rfl

theorem newName?_of_define (define : g.kind node = .define) :
    ((g.renamed names).node node).name? = g.newName? names node := by
  rw [name?_renamed, newName?, Arena.defineKey?, define]
  cases (g.node node).name? <;> rfl

theorem elementName_renamed (element : g.kind node = .element) :
    (g.renamed names).elementName node = g.newElementName names node := by
  have echoes : g.Echoes (g.renamed names) id names.key := echoes_renamed
  have declared : (g.renamed names).declaredName? node = g.declaredName? node :=
    echoes.declaredName? (.inl element)
  have around : (g.renamed names).enclosing? node .define = g.enclosing? node .define := by
    simpa using echoes.enclosing? node .define
  unfold Arena.elementName newElementName
  rw [declared, around]
  cases found : g.enclosing? node .define with
  | none => rfl
  | some define =>
    have name : ((some define).bind fun id => ((g.renamed names).node id).name?) =
        (some define).bind (g.newName? names) := newName?_of_define (Arena.kind_of_enclosing? found)
    cases g.declaredName? node with
    | some own => rfl
    | none => exact congrArg (fun given => Option.getD given anyName) name

theorem elementIndex_renamed : (g.renamed names).elementIndex = g.elementIndex := by
  have kinds : (fun id => decide ((g.renamed names).kind id = .element)) =
      fun id => decide (g.kind id = .element) := by
    funext id
    rw [kind_renamed]
  unfold elementIndex ElementIndex.ofArena Arena.ofKind Arena.ids
  rw [size_renamed, kinds]

theorem childRefs_renamed (element : g.kind node = .element) :
    (g.renamed names).childRefs g.elementIndex node =
      (g.childRefs g.elementIndex node).map fun child => ⟨child.id, g.newNameOf names child.id⟩ := by
  have inner : g.IsInner node := isInner_of_kind (by rw [element]; decide)
  have same : (g.renamed names).descend node .element = g.descend node .element := by
    simpa using echoes_renamed.descend inner .element
  unfold childRefs
  rw [same, List.map_filterMap]
  apply List.filterMap_congr
  intro child member
  rw [Option.map_map]
  cases numbered : g.elementIndex.idOf? child with
  | none => rfl
  | some id =>
    have found : g.elementIndex.nodeOf? id = some child := ElementIndex.idOf?_eq_some_iff.1 numbered
    have name : (g.renamed names).elementName child = g.newElementName names child :=
      elementName_renamed (mem_descend_iff.1 member).1
    simp [name, newNameOf_eq found]

theorem elementRecord_renamed (loaded : g.Loaded) (element : g.kind node = .element) :
    (g.renamed names).elementRecord g.elementIndex node =
      (g.elementRecord g.elementIndex node).rename (g.newNameOf names) := by
  have inner : g.IsInner node := isInner_of_kind (by rw [element]; decide)
  have echoes : g.Echoes (g.renamed names) id names.key := echoes_renamed
  obtain ⟨id, numbered⟩ := ElementIndex.exists_idOf? element
  have found : g.elementIndex.nodeOf? id = some node := ElementIndex.idOf?_eq_some_iff.1 numbered
  have uri : (g.renamed names).namespaceOf? node = g.namespaceOf? node :=
    echoes.namespaceOf? (.inl element)
  have description : (g.renamed names).description node = g.description node :=
    echoes.description inner
  have attributes : (g.renamed names).descend node .attr = g.descend node .attr := by
    simpa using echoes.descend inner .attr
  have records : (g.descend node .attr).map (g.renamed names).attributeRecord =
      (g.descend node .attr).map g.attributeRecord := by
    apply List.map_congr_left
    intro attr member
    exact echoes.attributeRecord loaded (mem_descend_iff.1 member).1
  have number : (g.elementIndex.idOf? node).getD 0 = id := elementRecord_id found
  simp only [ElementRecord.rename, elementRecord, elementName_renamed element,
    childRefs_renamed element, uri, description, attributes, records, number, newNameOf_eq found]

theorem ofGrammar_renamed (loaded : g.Loaded) :
    Documentation.ofGrammar (g.renamed names) =
      (Documentation.ofGrammar g).rename (g.newNameOf names) := by
  unfold Documentation.ofGrammar Documentation.rename
  rw [elementIndex_renamed, List.map_map]
  congr 1
  apply List.map_congr_left
  intro node member
  exact elementRecord_renamed loaded ((g.mem_ofKind (by decide)).1 member)

/-- Definitions and references of one name are of one scope. -/
def NamesTellScopes (g : Grammar) : Prop :=
  ∀ one two key other, g.defineKey? one = some key → g.defineKey? two = some other →
    key.name = other.name → key.scope = other.scope

/-- Under names that tell the scopes apart, no name is that of definitions in two scopes. -/
theorem namesTellScopes_apart (g : Grammar) : (g.renamed .apart).NamesTellScopes := by
  intro one two key other named also same
  rw [defineKey?_renamed] at named also
  obtain ⟨old, _, rfl⟩ := Option.map_eq_some_iff.1 named
  obtain ⟨further, _, rfl⟩ := Option.map_eq_some_iff.1 also
  exact (apartName_inj same).1

/-- New names for definitions, different ones in each scope, are no news to the documentation, but
where an element goes by the name of a definition. A document with these names is read as the
grammar with them; and there are names that no two scopes share, so what definitions in one scope
are called makes no difference to those in another. -/
theorem documentation_renamed {limits : Limits} {document : Xml.Document}
    (read : ofDocument limits document = .ok g) (names : Renaming) :
    Documentation.ofGrammar (g.renamed names) =
        (Documentation.ofGrammar g).rename (g.newNameOf names) ∧
      (AreTrimmed (g.newName? names) →
        ofDocument limits (document.respell (g.newName? names)) = .ok (g.renamed names)) ∧
      ∃ apart : Renaming, (g.renamed apart).NamesTellScopes :=
  ⟨ofGrammar_renamed ⟨limits, document, read⟩, ofDocument_respell read, .apart,
    g.namesTellScopes_apart⟩

/-- Two definitions of one name, one in a grammar in an element and one around it, each with an
element that goes by its name. The inner grammar refers to both. -/
def shadowedDocument : Xml.Document := .ofContent
  [.pattern .start none [.pattern .element "r" [.pattern .grammar none
    [.pattern .start none [.pattern .ref "x" [], .pattern .parentRef "x" []],
     .pattern .define "x" [.pattern .element none [.pattern .anyName none []]]]]],
   .pattern .define "x" [.pattern .element none
    [.pattern .anyName none [], .pattern .attr "a" []]]]

/-- The grammar of `shadowedDocument`; the inner grammar is at 3. -/
def shadowed : Grammar := .ofKept shadowedDocument rfl

theorem shadowed_renamed : ofDocument .standard shadowedDocument = .ok shadowed ∧
    AreTrimmed (shadowed.newName? .apart) ∧
    ofDocument .standard (shadowedDocument.respell (shadowed.newName? .apart)) =
      .ok (shadowed.renamed .apart) ∧
    (Documentation.ofGrammar shadowed).elements.map (·.name) = ["r", "x", "x"] ∧
    (Documentation.ofGrammar (shadowed.renamed .apart)).elements.map (·.name) =
      ["r", "iiiinx", "inx"] := by
  have read : ofDocument .standard shadowedDocument = .ok shadowed :=
    ofDocument_eq_ok_iff.2 ⟨rfl, rfl, _, rfl, rfl⟩
  obtain ⟨records, respelled, _⟩ := documentation_renamed read .apart
  have within : ∀ id ∈ shadowed.ids, ∀ name ∈ shadowed.newName? .apart id,
      Text.trimmed name = name := by decide +kernel
  have clean : AreTrimmed (shadowed.newName? .apart) := by
    intro id name named
    have inside : id < shadowed.size := by
      refine Nat.lt_of_not_le fun beyond => ?_
      rw [newName?, Arena.defineKey?, node_of_size_le beyond] at named
      cases named
    exact within id (List.mem_range.2 inside) name named
  refine ⟨read, clean, respelled clean, by decide +kernel, ?_⟩
  rw [records]
  decide +kernel

end Grammar

end RelaxDoc
