import RelaxDoc.Proofs.Grammar.Kinship
import RelaxDoc.Proofs.Report.Strings
import RelaxDoc.Proofs.Text.Parts
import RelaxDoc.Proofs.Text.Trimming
import RelaxDoc.Proofs.Xml.LegalNodes
import RelaxDoc.Record.Build

/-! The strings of the records. What a grammar keeps of a document, and what the records take from it,
are parts of strings of the document with no characters but spaces added, so they are legal if those are. -/
namespace RelaxDoc

open Xml (LegalText IsLegal AllLegal isLegal)

section Texts

theorem legalText_anyName : LegalText anyName := by decide

theorem legalText_xmlUri : LegalText Xml.xmlUri := by decide

theorem legalText_empty : LegalText "" := by decide

theorem Xml.LegalText.append {one other : String} (legal : LegalText one) (legal' : LegalText other) :
    LegalText (one ++ other) := by
  rw [LegalText, String.toList_append]
  exact List.forall_mem_append.2 ⟨legal, legal'⟩

theorem Xml.LegalText.trimmed {text : String} (legal : LegalText text) :
    LegalText (Text.trimmed text) := by
  rw [LegalText, Text.trimmed, String.toList_ofList]
  exact fun c mem => legal c (Text.mem_of_mem_trim mem)

theorem Xml.LegalText.singleLine {text : String} (legal : LegalText text) :
    LegalText (Text.singleLine text) := by
  rw [LegalText, Text.singleLine, String.toList_ofList]
  intro c mem
  rcases Text.mem_joinWith mem with joint | ⟨line, filled, inLine⟩
  · rw [List.mem_singleton.1 joint]
    decide
  · obtain ⟨whole, inSplit, rfl⟩ := List.mem_map.1 (List.mem_filter.1 filled).1
    exact legal c (Text.mem_of_mem_split inSplit (Text.mem_of_mem_trim inLine))

theorem legalText_directText {nodes : List Xml.Node} (legal : AllLegal nodes) :
    LegalText (Xml.directText nodes) := by
  induction nodes with
  | nil => exact legalText_empty
  | cons node rest ih =>
    rw [AllLegal] at legal
    cases node with
    | text content => exact legal.1.append (ih legal.2)
    | element | comment | instruction => exact ih legal.2

mutual

theorem legalText_fullText {node : Xml.Node} (legal : node.Legal) : LegalText node.fullText := by
  match node with
  | .text content =>
    rw [Xml.Node.Legal] at legal
    exact legal
  | .element tag children =>
    rw [Xml.Node.Legal] at legal
    exact legalText_fullTexts legal.2
  | .comment _ | .instruction _ _ => exact legalText_empty

theorem legalText_fullTexts {nodes : List Xml.Node} (legal : AllLegal nodes) :
    LegalText (Xml.fullTexts nodes) := by
  match nodes with
  | [] => exact legalText_empty
  | node :: rest =>
    rw [AllLegal] at legal
    exact (legalText_fullText legal.1).append (legalText_fullTexts legal.2)

end

end Texts

section Grammar

/-- A node of a grammar without illegal characters. -/
structure Node.Legal (node : Node) : Prop where
  attributes : ∀ entry ∈ node.attributes, LegalText entry.2
  text : ∀ text ∈ node.text, LegalText text
  prefixes : ∀ entry ∈ node.prefixes.entries, LegalText entry.2

theorem Node.legal_blank : Node.blank.Legal :=
  ⟨by simp [blank], by simp [blank], by simp [blank, Prefixes.empty]⟩

theorem legalText_plainAttributes {tag : Xml.Tag} (legal : tag.Legal) :
    ∀ entry ∈ plainAttributes tag.attributes, LegalText entry.2 := by
  intro entry mem
  obtain ⟨a, inTag, eq⟩ := List.mem_filterMap.1 mem
  split at eq
  · cases eq
    dsimp only
    split
    · exact legal.attributes a inTag
    · exact (legal.attributes a inTag).trimmed
  · cases eq

theorem legalText_keptText {kind : Kind} {children : List Xml.Node} (legal : AllLegal children) :
    ∀ text ∈ keptText kind children, LegalText text := by
  intro text mem
  unfold keptText at mem
  split at mem
  · cases mem
  · split at mem
    · cases mem
      exact legalText_fullTexts legal
    · split at mem <;> cases mem
      · exact (legalText_directText legal).trimmed
      · exact legalText_directText legal

theorem Prefixes.mem_insert {prefixes : Prefixes} {qualifier uri : String} {entry : String × String}
    (mem : entry ∈ (prefixes.insert qualifier uri).entries) :
    entry = (qualifier, uri) ∨ entry ∈ prefixes.entries := by
  obtain ⟨entries⟩ := prefixes
  change entry ∈ bind qualifier uri entries at mem
  induction entries with
  | nil => exact .inl (List.mem_singleton.1 mem)
  | cons first rest ih =>
    rw [bind] at mem
    split at mem <;> rcases List.mem_cons.1 mem with rfl | later
    · exact .inl rfl
    · exact .inr (List.mem_cons_of_mem _ later)
    · exact .inr List.mem_cons_self
    · exact (ih later).imp_right (List.mem_cons_of_mem _)

theorem legalText_newPrefixes {outer : Xml.Scope} {tag : Xml.Tag} (legal : tag.Legal) :
    ∀ entry ∈ (newPrefixes outer tag.declarations).entries, LegalText entry.2 := by
  refine List.foldlRecOn tag.declarations _
    (motive := fun prefixes : Prefixes => ∀ entry ∈ prefixes.entries, LegalText entry.2)
    (by simp [Prefixes.empty]) ?_
  intro prefixes before d mem
  split
  · exact before
  · split
    · exact before
    · intro entry inside
      rcases Prefixes.mem_insert inside with rfl | old
      · exact legal.declarations d mem
      · exact before entry old

mutual

theorem Particle.nodes_legal {outer : Xml.Scope} {following : List Xml.Node} {root : Xml.Node}
    {particle : Particle} (legal : root.Legal) (kept : ofNode? outer following root = some particle)
    (parent : Option Nat) (id : Nat) : ∀ node ∈ nodes parent id particle, node.Legal := by
  match root with
  | .element tag children =>
    rw [Xml.Node.Legal] at legal
    rw [ofNode?] at kept
    split at kept
    · cases kept
    · rename_i kind known
      cases kept
      rw [nodes, List.forall_mem_cons]
      refine ⟨⟨legalText_plainAttributes legal.1, legalText_keptText legal.2,
        legalText_newPrefixes legal.1⟩, ?_⟩
      split
      · exact nofun
      · exact nodesOfAll_legal legal.2 _ _ _
  | .text _ | .comment _ | .instruction _ _ => cases kept

theorem Particle.nodesOfAll_legal {roots : List Xml.Node} (legal : AllLegal roots) (outer : Xml.Scope)
    (parent first : Nat) : ∀ node ∈ nodesOfAll parent first (ofNodes outer roots), node.Legal := by
  match roots with
  | [] => exact nofun
  | root :: later =>
    rw [AllLegal] at legal
    rw [ofNodes]
    cases kept : ofNode? outer later root with
    | none => exact nodesOfAll_legal legal.2 outer parent first
    | some particle =>
      rw [Option.toList_some, List.singleton_append, nodesOfAll, List.forall_mem_append]
      exact ⟨nodes_legal legal.1 kept _ _, nodesOfAll_legal legal.2 outer parent _⟩

end

/-- What a grammar keeps of a document is legal if the document is. -/
theorem Grammar.legal_of_read {g : Grammar} {limits : Limits} {document : Xml.Document}
    (read : ofDocument limits document = .ok g) (legal : document.toNode.Legal) (id : Nat) :
    (g.node id).Legal := by
  obtain ⟨_, _, particle, kept, rfl⟩ := ofDocument_eq_ok_iff.1 read
  have all := Particle.nodes_legal legal kept none 0
  have same : particle.grammar.node id = ((Particle.nodes none 0 particle)[id]?).getD .blank :=
    Particle.nodeAt_eq _ id
  rw [same]
  cases found : (Particle.nodes none 0 particle)[id]? with
  | none => exact Node.legal_blank
  | some node => exact all node (List.mem_of_getElem? found)

variable {g : Grammar}

theorem Node.Legal.attribute? {node : Node} (legal : node.Legal) {name value : String}
    (found : node.attribute? name = some value) : LegalText value := by
  obtain ⟨before, behind, eq, -⟩ := List.lookup_eq_some_iff.1 found
  exact legal.attributes (name, value) (eq ▸ by simp)

theorem Node.Legal.content {node : Node} (legal : node.Legal) : LegalText node.content := by
  unfold Node.content
  cases text : node.text with
  | none => exact legalText_empty
  | some content => exact legal.text content text

theorem Prefixes.legal_get? {prefixes : Prefixes} (legal : ∀ entry ∈ prefixes.entries, LegalText entry.2)
    {qualifier uri : String} (found : prefixes.get? qualifier = some uri) : LegalText uri := by
  obtain ⟨before, behind, eq, -⟩ := List.lookup_eq_some_iff.1 found
  exact legal (qualifier, uri) (eq ▸ by simp)

theorem legalText_getD {found : Option String} (legal : ∀ text ∈ found, LegalText text)
    {other : String} (own : LegalText other) : LegalText (found.getD other) := by
  cases found with
  | none => exact own
  | some text => exact legal text rfl

/-- All nodes of a grammar are without illegal characters. -/
def Grammar.Legal (g : Grammar) : Prop := ∀ id, (g.node id).Legal

namespace Grammar

variable (legal : g.Legal) (id : Nat)

include legal

theorem Legal.declaredName? : ∀ name ∈ g.declaredName? id, LegalText name := by
  intro name mem
  unfold Arena.declaredName? at mem
  cases given : (g.node id).name? with
  | some written =>
    rw [given] at mem
    cases mem
    exact (legal id).attribute? given
  | none =>
    rw [given] at mem
    obtain ⟨child, -, rfl⟩ := Option.map_eq_some_iff.1 mem
    exact (legal child).content

theorem Legal.elementName : LegalText (g.elementName id) := by
  unfold Arena.elementName
  split
  · rename_i name found
    exact legal.declaredName? id name found
  · refine legalText_getD (fun name mem => ?_) legalText_anyName
    obtain ⟨define, -, named⟩ := Option.bind_eq_some_iff.1 mem
    exact (legal define).attribute? named

theorem Legal.attributeName : LegalText (g.attributeName id) :=
  legalText_getD (legal.declaredName? id) legalText_anyName

theorem Legal.ns? : ∀ uri ∈ g.ns? id, LegalText uri := fun _ found => (legal id).attribute? found

theorem Legal.nearestNs? : ∀ uri ∈ g.nearestNs? id, LegalText uri := by
  intro uri mem
  have ways : uri ∈ (g.nameNode? id).bind g.ns? ∨ uri ∈ g.ns? id ∨
      uri ∈ (g.ancestors id).findSome? g.ns? := by
    unfold Arena.nearestNs? at mem
    cases named : (g.nameNode? id).bind g.ns? with
    | some found => exact .inl (by simpa [named] using mem)
    | none =>
      cases own : g.ns? id with
      | some found => exact .inr (.inl (by simpa [named, own] using mem))
      | none =>
        simp only [named, own] at mem
        split at mem
        · exact .inr (.inr mem)
        · cases mem
  rcases ways with found | found | found
  · obtain ⟨child, -, found⟩ := Option.bind_eq_some_iff.1 found
    exact legal.ns? child uri found
  · exact legal.ns? id uri found
  · obtain ⟨ancestor, -, found⟩ := List.exists_of_findSome?_eq_some found
    exact legal.ns? ancestor uri found

theorem Legal.qualifiedNamespace? : ∀ uri ∈ g.qualifiedNamespace? id, LegalText uri := by
  intro uri mem
  obtain ⟨name, -, resolved⟩ := Option.bind_eq_some_iff.1 mem
  unfold resolveQualified at resolved
  split at resolved
  · cases resolved
  · split at resolved
    · cases resolved
      exact legalText_xmlUri
    · obtain ⟨scope, inScopes, found⟩ := List.exists_of_findSome?_eq_some resolved
      obtain ⟨node, -, rfl⟩ := List.mem_map.1 inScopes
      exact Prefixes.legal_get? (legal node).prefixes found

theorem Legal.namespaceOf? : ∀ uri ∈ g.namespaceOf? id, LegalText uri := by
  intro uri mem
  unfold Arena.namespaceOf? at mem
  split at mem
  · rename_i found
    cases mem
    exact legal.qualifiedNamespace? id uri found
  · exact legal.nearestNs? id uri (Option.filter_eq_some_iff.1 mem).1

theorem Legal.description : LegalText (g.description id) := by
  refine legalText_getD (fun line mem => ?_) legalText_empty
  obtain ⟨remark, -, rfl⟩ := Option.map_eq_some_iff.1 mem
  exact (legal remark).content.singleLine

theorem Legal.enumValue : LegalText (g.enumValue id).value ∧ LegalText (g.enumValue id).description := by
  refine ⟨(legal id).content, legalText_getD (fun line mem => ?_) legalText_empty⟩
  obtain ⟨remark, -, rfl⟩ := Option.map_eq_some_iff.1 mem
  exact (legal remark).content.singleLine

theorem Legal.params : ∀ param ∈ g.params id, LegalText param.name ∧ LegalText param.value := by
  simp only [Grammar.params, List.forall_mem_map]
  intro child _
  exact ⟨legalText_getD (fun name => (legal child).attribute?) legalText_empty, (legal child).content⟩

theorem Legal.attributeType : (g.attributeType id).Holds LegalText LegalText := by
  unfold Grammar.attributeType
  split
  · trivial
  · trivial
  · rename_i data _
    exact ⟨legalText_getD (fun name => (legal data).attribute?) legalText_empty, legal.description data,
      legal.params data⟩
  · simp only [AttributeType.Holds, List.forall_mem_map]
    exact fun value _ => legal.enumValue value
  · simp only [AttributeType.Holds, List.forall_mem_singleton]
    exact legal.enumValue _
  · trivial

theorem Legal.attributeRecord : (g.attributeRecord id).Holds LegalText LegalText where
  name := legal.attributeName id
  uri := legal.namespaceOf? id
  description := legal.description id
  type := legal.attributeType id

theorem Legal.elementRecord (index : ElementIndex) :
    (g.elementRecord index id).Holds LegalText LegalText where
  name := legal.elementName id
  uri := legal.namespaceOf? id
  description := legal.description id
  attributes := by
    simp only [Grammar.elementRecord, List.forall_mem_map]
    exact fun inside _ => legal.attributeRecord inside

end Grammar

/-- The records of a grammar of legal nodes are legal. -/
theorem Documentation.legal_ofGrammar (legal : g.Legal) :
    (ofGrammar g).Holds LegalText LegalText := by
  simp only [Documentation.Holds, ofGrammar, List.forall_mem_map]
  exact fun node _ => Grammar.Legal.elementRecord legal node g.elementIndex

end Grammar

end RelaxDoc
