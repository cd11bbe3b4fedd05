import RelaxDoc.Proofs.Structure.Sites
import RelaxDoc.Proofs.Text.Trimming

/-! What the check says about a grammar. It looks at the elements as they are written, a grammar
has them with trimmed attributes and without what is skipped; yet all that is checked holds there
too. -/
namespace RelaxDoc

open Xml (Address)

/-- An attribute is that of the element, trimmed unless it is a namespace. -/
theorem lookup_plainAttributes (attributes : List Xml.Attribute) (name : String) :
    (plainAttributes attributes).lookup name =
      (attributes.find? fun a => a.name = ⟨none, name⟩).map fun a =>
        if name = "ns" then a.value else Text.trimmed a.value := by
  induction attributes with
  | nil => rfl
  | cons a rest ih =>
    obtain ⟨⟨uri, localName⟩, value⟩ := a
    unfold plainAttributes at ih ⊢
    rw [List.filterMap_cons, List.find?_cons]
    cases uri with
    | some uri => simpa using ih
    | none =>
      by_cases same : localName = name
      · simp [same]
      · simpa [lookup_cons_ite, same, Ne.symm same] using ih

theorem Node.Records.attribute? {node : Node} {tag : Xml.Tag} {children : List Xml.Node}
    (records : node.Records tag children) {name : String} (other : name ≠ "ns") :
    node.attribute? name = (tag.attribute? name).map Text.trimmed := by
  have same : node.attributes = plainAttributes tag.attributes := by
    rw [records.attributes, plainAttributes_eq]
  rw [Node.attribute?, same, lookup_plainAttributes, Xml.Tag.attribute?, Option.map_map]
  congr 1
  funext a
  exact if_neg other

/-- The first element that is no documentation is of one of the kinds that the first structural
element is found to be of, if all structural elements are known. -/
theorem find?_kinds_of_beginsWithNameClass {nodes : List Xml.Node}
    (known : ∀ (tag : Xml.Tag) (content : List Xml.Node), Xml.Node.element tag content ∈ nodes →
      isStructural tag.name = true → ∃ kind, Kind.ofTag? tag.name.localName = some kind)
    (begins : beginsWithNameClass nodes = true) :
    ∃ kind, (nodes.filterMap Kind.ofNode?).find? (fun kind => kind ≠ .documentation) = some kind ∧
      kind ∈ [.name, .anyName, .nsName, .choice] := by
  induction nodes with
  | nil => cases begins
  | cons node rest ih =>
    have later := ih fun tag content member => known tag content (List.mem_cons_of_mem _ member)
    cases node with
    | text | comment | instruction => exact later begins
    | element tag content =>
      have names : Site.elementNames (.element tag content :: rest) =
        tag.name :: Site.elementNames rest := rfl
      rw [beginsWithNameClass, names, List.find?_cons] at begins
      rw [List.filterMap_cons, Kind.ofNode?]
      by_cases structural : isStructural tag.name = true
      · rw [structural] at begins
        have uri : tag.name.uri = some Namespace.structural := by
          simpa [isStructural] using structural
        obtain ⟨kind, same⟩ := known tag content (List.mem_cons_self ..) structural
        have among : kind ∈ [.name, .anyName, .nsName, .choice] := by
          have among : tag.name.localName ∈ ["name", "anyName", "nsName", "choice"] := by
            simpa using begins
          rw [← Kind.tag_of_ofTag? same] at among
          revert among
          cases kind <;> decide
        have other : kind ≠ .documentation := by
          rintro rfl
          revert among
          decide
        refine ⟨kind, ?_, among⟩
        rw [show Kind.ofName? tag.name = some kind by rw [Kind.ofName?, if_pos uri, same]]
        simp [other]
      · rw [Bool.not_eq_true] at structural
        rw [structural] at begins
        have uri : tag.name.uri ≠ some Namespace.structural := by
          simpa [isStructural] using structural
        obtain ⟨kind, found, among⟩ := later begins
        refine ⟨kind, ?_, among⟩
        have skipped : Kind.ofName? tag.name = none ∨
            Kind.ofName? tag.name = some .documentation := by
          rw [Kind.ofName?, if_neg uri]
          split
          · exact .inr rfl
          · exact .inl rfl
        rcases skipped with none | documentation
        · rw [none]
          exact found
        · rw [documentation]
          exact found

namespace Grammar

variable {g : Grammar} {id : Nat}

/-- A grammar with the structure that is expected of it. -/
structure IsStructured (g : Grammar) : Prop where
  key : ∀ id, g.kind id = .define ∨ g.kind id = .ref ∨ g.kind id = .parentRef →
    ∃ key, g.defineKey? id = some key ∧ Name.isSimple key.name = true
  place : ∀ id, g.kind id = .define → ∃ outer, g.parent? id = some outer ∧
    g.kind outer ∈ [.grammar, .div, .inclusion]
  type : ∀ id, g.kind id = .data → ∃ type, (g.node id).attribute? "type" = some type
  href : ∀ id, g.kind id = .inclusion ∨ g.kind id = .externalRef →
    ∃ href, (g.node id).attribute? "href" = some href
  name : ∀ id, g.kind id = .element ∨ g.kind id = .attr →
    (∃ name, (g.node id).name? = some name ∧ Name.isQualified name = true) ∨
    ∃ child, g.nameClass? id = some child ∧ g.kind child ∈ [.name, .anyName, .nsName, .choice]

theorem exists_defineKey? {name : String} (named : (g.node id).name? = some name)
    (kind : g.kind id = .define ∨ g.kind id = .ref ∨ g.kind id = .parentRef) :
    ∃ key, g.defineKey? id = some key ∧ key.name = name := by
  unfold Arena.defineKey?
  rw [named]
  rcases kind with kind | kind | kind <;> rw [kind] <;> exact ⟨_, rfl, rfl⟩

/-- A node that stands for an element which follows the rules of its kind. -/
structure Obeys (g : Grammar) (document : Xml.Document) (id : Nat) (address : Address)
    (site : Site) : Prop where
  listed : (keptAddresses document.toNode)[id]? = some address
  reached : document.toNode.at? address = some (.element site.tag site.children)
  records : (g.node id).Records site.tag site.children
  follows : g.kind id ≠ .documentation → site.Follows (g.kind id)
  parent : site.parent = none ∨ ∃ around step outer content, address = around ++ [step] ∧
    document.toNode.at? around = some (.element outer content) ∧ site.parent = some outer.name

section Checked

variable {document : Xml.Document} (checked : checkStructure document = .ok ())

include checked

/-- A structural element of a document that passes the check is known and follows the rules. -/
theorem follows_of_checked {site : Site} (among : site ∈ Site.all document)
    (structural : isStructural site.tag.name = true) :
    ∃ kind, Kind.ofTag? site.tag.name.localName = some kind ∧ site.Follows kind :=
  Site.breach?_eq_none_iff.1 (checkStructure_eq_ok_iff.1 checked site among structural)

/-- Nothing structural is skipped. -/
theorem not_structural_of_skipped {name : Xml.Name}
    (met : .skipped name ∈ Visit.ofNode 1 document.toNode) : isStructural name = false := by
  obtain ⟨site, among, rfl, unknown⟩ := Site.exists_of_skipped 1 none
    [⟨document.root.name.localName, none⟩] document.toNode met
  refine eq_false_of_ne_true fun structural => ?_
  obtain ⟨kind, known, _⟩ := follows_of_checked checked among structural
  have uri : site.tag.name.uri = some Namespace.structural := by
    simpa [isStructural] using structural
  rw [Kind.ofName?, if_pos uri, known] at unknown
  cases unknown

theorem exists_obeys (enumerates : g.Enumerates document.toNode (keptAddresses document.toNode))
    (inside : id < g.size) : ∃ address site, g.Obeys document id address site := by
  obtain ⟨address, listed⟩ := enumerates.exists_address inside
  obtain ⟨tag, children, reached, records⟩ := enumerates.depicts id address listed
  obtain ⟨site, among, rfl, rfl, parent⟩ : ∃ site ∈ Site.all document, site.tag = tag ∧
      site.children = children ∧ (site.parent = none ∨ ∃ around step outer content,
        address = around ++ [step] ∧ document.toNode.at? around = some (.element outer content) ∧
          site.parent = some outer.name) := by
    rcases List.eq_nil_or_concat address with rfl | ⟨around, step, split⟩
    · cases reached
      exact ⟨_, List.mem_cons_self .., rfl, rfl, .inl rfl⟩
    · rw [List.concat_eq_append] at split
      subst split
      obtain ⟨outer, content, above, further, among⟩ :=
        Site.exists_of_at? reached none [⟨document.root.name.localName, none⟩]
      exact ⟨_, among, rfl, rfl, .inr ⟨around, step, outer, content, rfl, above, rfl⟩⟩
  refine ⟨address, site, listed, reached, records, fun other => ?_, parent⟩
  have uri : site.tag.name.uri = some Namespace.structural := by
    have known := records.kind
    rw [Kind.ofName?] at known
    split at known
    · assumption
    · split at known
      · exact absurd (Option.some.inj known).symm other
      · cases known
  obtain ⟨kind, known, follows⟩ := follows_of_checked checked among (by simp [isStructural, uri])
  have same := records.kind
  rw [Kind.ofName?, if_pos uri, known] at same
  rw [show g.kind id = kind from (Option.some.inj same).symm]
  exact follows

/-- Elements that are read in a node are known if they are structural. -/
theorem known_of_member {address : Address} {node : Xml.Node}
    (reached : document.toNode.at? address = some node) (tag : Xml.Tag) (content : List Xml.Node)
    (member : .element tag content ∈ node.children) (structural : isStructural tag.name = true) :
    ∃ kind, Kind.ofTag? tag.name.localName = some kind := by
  obtain ⟨step, child⟩ := List.getElem?_of_mem member
  have below := Xml.Node.at?_concat_iff.2 ⟨node, reached, child⟩
  obtain ⟨_, _, _, _, among⟩ :=
    Site.exists_of_at? below none [⟨document.root.name.localName, none⟩]
  obtain ⟨kind, known, _⟩ := follows_of_checked checked among structural
  exact ⟨kind, known⟩

end Checked

namespace Obeys

variable {document : Xml.Document} {address : Address} {site : Site}
  (obeys : g.Obeys document id address site)

include obeys

theorem attribute? {name : String} (other : name ≠ "ns") :
    (g.node id).attribute? name = (site.tag.attribute? name).map Text.trimmed :=
  obeys.records.attribute? other

/-- A definition or a reference has a key, as the name that is checked needs no trimming. -/
theorem exists_key (kind : g.kind id = .define ∨ g.kind id = .ref ∨ g.kind id = .parentRef) :
    ∃ key, g.defineKey? id = some key ∧ Name.isSimple key.name = true := by
  have other : g.kind id ≠ .documentation := by
    rcases kind with kind | kind | kind <;> rw [kind] <;> decide
  obtain ⟨name, written, simple⟩ := (obeys.follows other).definitionName kind
  have named : (g.node id).name? = some name := by
    rw [Node.name?, obeys.attribute? (by decide), written, Option.map_some,
      Name.trimmed_of_isSimple simple]
  obtain ⟨key, found, same⟩ := exists_defineKey? named kind
  exact ⟨key, found, same ▸ simple⟩

/-- The element around a definition is kept, as it is of a kind that definitions stand in. -/
theorem exists_parent (enumerates : g.Enumerates document.toNode (keptAddresses document.toNode))
    (define : g.kind id = .define) :
    ∃ outer, g.parent? id = some outer ∧ g.kind outer ∈ [.grammar, .div, .inclusion] := by
  have holds := (obeys.follows (by rw [define]; decide)).place define
  unfold Site.holdsDefinitions at holds
  rcases obeys.parent with none | ⟨around, step, outer, content, split, above, parent⟩
  · rw [none] at holds
    cases holds
  · rw [parent] at holds
    obtain ⟨structural, among⟩ := Bool.and_eq_true_iff.1 holds
    have listed := obeys.listed
    rw [split] at listed
    obtain ⟨node, there, found⟩ := enumerates.parent id around step listed
    refine ⟨node, there, ?_⟩
    have known : Kind.ofName? outer.name = some (g.kind node) := enumerates.kind_eq found above
    have uri : outer.name.uri = some Namespace.structural := by
      simpa [isStructural] using structural
    rw [Kind.ofName?, if_pos uri] at known
    rw [← Kind.tag_of_ofTag? known] at among
    revert among
    cases g.kind node <;> decide

theorem exists_attribute? {name value : String} (other : name ≠ "ns")
    (written : site.tag.attribute? name = some value) :
    ∃ value, (g.node id).attribute? name = some value :=
  ⟨Text.trimmed value, by rw [obeys.attribute? other, written, Option.map_some]⟩

/-- A pattern has a name, or its first child that is no documentation is a name class. -/
theorem named (enumerates : g.Enumerates document.toNode (keptAddresses document.toNode))
    (loaded : g.Loaded) (checked : checkStructure document = .ok ())
    (kind : g.kind id = .element ∨ g.kind id = .attr) :
    (∃ name, (g.node id).name? = some name ∧ Name.isQualified name = true) ∨
    ∃ child, g.nameClass? id = some child ∧
      g.kind child ∈ [.name, .anyName, .nsName, .choice] := by
  have other : g.kind id ≠ .documentation := by
    rcases kind with kind | kind <;> rw [kind] <;> decide
  have plain : (g.kind id).holdsText = false := by
    rcases kind with kind | kind <;> rw [kind] <;> rfl
  rcases (obeys.follows other).patternName kind with ⟨name, written, qualified⟩ | ⟨none, begins⟩
  · left
    refine ⟨Text.trimmed name, ?_, qualified⟩
    rw [Node.name?, obeys.attribute? (by decide), written, Option.map_some]
  · right
    have unnamed : (g.node id).name? = .none := by
      rw [Node.name?, obeys.attribute? (by decide), none, Option.map_none]
    have kinds := enumerates.children_kinds loaded obeys.listed obeys.reached
      ⟨g.kind id, obeys.records.kind, plain⟩
    obtain ⟨found, first, among⟩ := find?_kinds_of_beginsWithNameClass
      (fun tag content => known_of_member checked obeys.reached tag content) begins
    have first : ((g.children id).map g.kind).find? (fun kind => kind ≠ .documentation) =
      some found := by rw [kinds]; exact first
    rw [List.find?_map] at first
    obtain ⟨child, here, rfl⟩ := Option.map_eq_some_iff.1 first
    exact ⟨child, by rw [Arena.nameClass?, if_pos ⟨kind, unnamed⟩]; exact here, among⟩

end Obeys

/-- A grammar that is read from a document which passes the check has the structure that is expected
of it, and nothing structural was skipped on the way. -/
theorem isStructured_of_checked {limits : Limits} {document : Xml.Document}
    (checked : checkStructure document = .ok ()) (read : ofDocument limits document = .ok g) :
    (∀ name, .skipped name ∈ Visit.ofNode 1 document.toNode → isStructural name = false) ∧
      g.IsStructured := by
  have enumerates := enumerates_of_read read
  have loaded : g.Loaded := ⟨limits, document, read⟩
  have obeys (id : Nat) (kind : g.kind id ≠ .empty) :
      ∃ address site, g.Obeys document id address site :=
    exists_obeys checked enumerates (g.lt_size_of_kind kind)
  refine ⟨fun name met => not_structural_of_skipped checked met, ?_, ?_, ?_, ?_, ?_⟩
  · intro id kind
    obtain ⟨_, _, obeys⟩ := obeys id (by
      rcases kind with kind | kind | kind <;> rw [kind] <;> decide)
    exact obeys.exists_key kind
  · intro id define
    obtain ⟨_, _, obeys⟩ := obeys id (by rw [define]; decide)
    exact obeys.exists_parent enumerates define
  · intro id data
    obtain ⟨_, _, obeys⟩ := obeys id (by rw [data]; decide)
    obtain ⟨type, written⟩ := (obeys.follows (by rw [data]; decide)).type data
    exact obeys.exists_attribute? (by decide) written
  · intro id kind
    obtain ⟨_, _, obeys⟩ := obeys id (by rcases kind with kind | kind <;> rw [kind] <;> decide)
    obtain ⟨href, written⟩ :=
      (obeys.follows (by rcases kind with kind | kind <;> rw [kind] <;> decide)).href kind
    exact obeys.exists_attribute? (by decide) written
  · intro id kind
    obtain ⟨_, _, obeys⟩ := obeys id (by rcases kind with kind | kind <;> rw [kind] <;> decide)
    exact obeys.named enumerates loaded checked kind

/-- A definition in a `div` with a name class behind a remark, and the reference to it. -/
def checkedDocument : Xml.Document := .ofContent
  [.pattern .start none [.pattern .ref "x" []],
   .element ⟨⟨none, "note"⟩, [], []⟩ [.pattern .text none []],
   .pattern .div none [.pattern .define "x" [.pattern .element none
     [.element ⟨⟨some Namespace.compatibility, "documentation"⟩, [], []⟩ [.text "any of them"],
      .pattern .choice none [.pattern .name none [.text " a "], .pattern .anyName none []],
      .pattern .attr " b " [.pattern .text none []]]]]]

/-- The grammar of `checkedDocument`; its definition is at 4, the element at 5. -/
def checkedGrammar : Grammar := .ofKept checkedDocument rfl

theorem checked_isStructured : checkStructure checkedDocument = .ok () ∧
    ofDocument .standard checkedDocument = .ok checkedGrammar ∧ checkedGrammar.IsStructured ∧
    (∃ outer, checkedGrammar.parent? 4 = some outer ∧
      checkedGrammar.kind outer ∈ [.grammar, .div, .inclusion]) ∧
    checkedGrammar.nameClass? 5 = some 7 := by
  have checked : checkStructure checkedDocument = .ok () := by decide +kernel
  have read : ofDocument .standard checkedDocument = .ok checkedGrammar :=
    ofDocument_eq_ok_iff.2 ⟨rfl, rfl, _, rfl, rfl⟩
  obtain ⟨_, structured⟩ := isStructured_of_checked checked read
  refine ⟨checked, read, structured, structured.place 4 (by decide +kernel), ?_⟩
  decide +kernel

end Grammar

end RelaxDoc
