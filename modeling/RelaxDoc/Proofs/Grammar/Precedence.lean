import RelaxDoc.Naming
import RelaxDoc.Proofs.Grammar.Amending
import RelaxDoc.Proofs.Grammar.Bindings
import RelaxDoc.Proofs.Grammar.Spans

/-! Which of its sources decides on the namespace of a pattern. The sources are levels around the
name, and the nearest one that says something decides. What stands further out does not matter. -/
namespace RelaxDoc

open Xml (Address)

/-- A level that can say something about the namespace of a pattern. -/
inductive NsLevel where
  /-- The qualifier of the name. -/
  | qualifier
  /-- The `ns` of the single name in the pattern. -/
  | singleName
  /-- The `ns` of the pattern itself. -/
  | own
  /-- The `ns` of a node around the pattern. -/
  | around (outer : Nat)
  deriving DecidableEq

/-- The namespace that is meant by what a level says. An empty `ns` means that there is none. -/
def NsLevel.namespace : NsLevel → String → Option String
  | .qualifier, uri => some uri
  | _, uri => if uri = "" then none else some uri

namespace Grammar

variable {g h : Grammar} {root : Xml.Node} {addresses : List Address} {id outer : Nat}
  {name uri : String} {level : NsLevel}

/-- The levels for a pattern, the nearest first. The nodes around it count for an element only. -/
def nsLevels (g : Grammar) (id : Nat) : List NsLevel :=
  .qualifier :: .singleName :: .own ::
    if g.kind id = .element then (g.ancestors id).map .around else []

/-- The levels for a pattern that are nearer than one of them. -/
def nearerLevels (g : Grammar) (id : Nat) (level : NsLevel) : List NsLevel :=
  (g.nsLevels id).takeWhile fun nearer => nearer ≠ level

/-- A name is written on a pattern, in its `name` attribute or else as the text of the single name
in it. The holder is the node on which it is written. -/
inductive Writes (g : Grammar) (id : Nat) : (holder : Nat) → (name : String) → Prop where
  | named {name : String} (written : (g.node id).name? = some name) : Writes g id id name
  | content {child : Nat} (silent : (g.node id).name? = none)
      (single : g.nameNode? id = some child) : Writes g id child (g.node child).content

/-- What a level says about the namespace of a pattern, for a grammar whose nodes stand at the
addresses of a document. -/
inductive SaysAt (g : Grammar) (root : Xml.Node) (addresses : List Address) (id : Nat) :
    NsLevel → String → Prop where
  | xml {holder : Nat} {name : String} (writes : g.Writes id holder name)
      (qualified : (Name.split name).1 = some "xml") :
      SaysAt g root addresses id .qualifier Xml.xmlUri
  | bound {holder : Nat} {name qualifier uri : String} {address : Address}
      (writes : g.Writes id holder name) (qualified : (Name.split name).1 = some qualifier)
      (other : qualifier ≠ "xml") (there : addresses[holder]? = some address)
      (binds : root.Binds address qualifier uri) : SaysAt g root addresses id .qualifier uri
  | singleName {child : Nat} {uri : String} (single : g.nameNode? id = some child)
      (said : g.ns? child = some uri) : SaysAt g root addresses id .singleName uri
  | own {uri : String} (said : g.ns? id = some uri) : SaysAt g root addresses id .own uri
  | around {outer : Nat} {uri : String} (said : g.ns? outer = some uri) :
      SaysAt g root addresses id (.around outer) uri

/-- A namespace, or none, is that of a pattern: as the nearest level that says something means it,
and none if no level says anything. -/
inductive HasNamespace (g : Grammar) (root : Xml.Node) (addresses : List Address) (id : Nat) :
    Option String → Prop where
  | decided {level : NsLevel} {uri : String} (among : level ∈ g.nsLevels id)
      (said : g.SaysAt root addresses id level uri)
      (nearest : ∀ nearer ∈ g.nearerLevels id level, ∀ other,
        ¬ g.SaysAt root addresses id nearer other) :
      HasNamespace g root addresses id (level.namespace uri)
  | undecided (silent : ∀ level ∈ g.nsLevels id, ∀ uri, ¬ g.SaysAt root addresses id level uri) :
      HasNamespace g root addresses id none

/-- What a level says. -/
def nsAt? (g : Grammar) (id : Nat) : NsLevel → Option String
  | .qualifier => g.qualifiedNamespace? id
  | .singleName => (g.nameNode? id).bind g.ns?
  | .own => g.ns? id
  | .around outer => g.ns? outer

/-- The namespace that a level gives, if it says something. -/
def verdict? (g : Grammar) (id : Nat) (level : NsLevel) : Option (Option String) :=
  (g.nsAt? id level).map level.namespace

/-- What is first found in a list is found at an entry before which nothing is. -/
theorem findSome?_eq_some_iff_takeWhile {α β : Type} [DecidableEq α] {f : α → Option β}
    {entries : List α} {value : β} : entries.findSome? f = some value ↔
      ∃ entry ∈ entries, f entry = some value ∧
        ∀ other ∈ entries.takeWhile fun other => other ≠ entry, f other = none := by
  induction entries with
  | nil => simp
  | cons first rest ih =>
    rw [List.findSome?_cons]
    cases found : f first with
    | none =>
      refine ih.trans (exists_congr fun entry => ?_)
      by_cases same : first = entry
      · subst same
        simp [found]
      · simp [same, Ne.symm same, found]
    | some here =>
      constructor
      · intro same
        cases same
        exact ⟨first, List.mem_cons_self, found, by simp⟩
      · intro ⟨entry, member, there, before⟩
        by_cases same : first = entry
        · rw [← found, same, there]
        · have silent := before first (by simp [same])
          rw [found] at silent
          cases silent

theorem namespace_of_ns {level : NsLevel} (other : level ≠ .qualifier) (uri : String) :
    level.namespace uri = (some uri).filter fun uri => uri ≠ "" := by
  rw [Option.filter_some]
  cases level with
  | qualifier => exact absurd rfl other
  | singleName | own | around => by_cases empty : uri = "" <;> simp [NsLevel.namespace, empty]

/-- The levels of `ns` alone give the first `ns`, and none if that is empty. -/
theorem join_findSome?_verdict? {levels : List NsLevel}
    (other : ∀ level ∈ levels, level ≠ .qualifier) :
    (levels.findSome? (g.verdict? id)).join =
      (levels.findSome? (g.nsAt? id)).filter fun uri => uri ≠ "" := by
  induction levels with
  | nil => rfl
  | cons first rest ih =>
    rw [List.findSome?_cons, List.findSome?_cons, verdict?]
    cases g.nsAt? id first with
    | some uri => exact namespace_of_ns (other first List.mem_cons_self) uri
    | none => exact ih fun level member => other level (List.mem_cons_of_mem _ member)

theorem nearestNs?_eq_findSome? (g : Grammar) (id : Nat) :
    g.nearestNs? id = (g.nsLevels id).tail.findSome? (g.nsAt? id) := by
  unfold Arena.nearestNs? nsLevels
  rw [List.tail_cons, List.findSome?_cons, List.findSome?_cons]
  simp only [nsAt?]
  cases (g.nameNode? id).bind g.ns? with
  | some uri => rfl
  | none =>
    cases g.ns? id with
    | some uri => rfl
    | none =>
      by_cases element : g.kind id = .element
      · rw [if_pos element, if_pos element, List.findSome?_map]
        rfl
      · rw [if_neg element, if_neg element]
        rfl

/-- The namespace is the verdict of the first level that gives one. -/
theorem namespaceOf?_eq_findSome? (g : Grammar) (id : Nat) :
    g.namespaceOf? id = ((g.nsLevels id).findSome? (g.verdict? id)).join := by
  have other : ∀ level ∈ (g.nsLevels id).tail, level ≠ .qualifier := by
    unfold nsLevels
    split <;> simp
  have further := @join_findSome?_verdict? g id _ other
  unfold Arena.namespaceOf?
  rw [nearestNs?_eq_findSome?, ← further]
  change _ = (List.findSome? (g.verdict? id) (.qualifier :: (g.nsLevels id).tail)).join
  rw [List.findSome?_cons, verdict?, nsAt?]
  cases g.qualifiedNamespace? id <;> rfl

theorem nameNode?_of_name? {written : String} (named : (g.node id).name? = some written) :
    g.nameNode? id = none := by
  simp [Arena.nameNode?, Arena.nameClass?, named]

theorem mem_children_of_nameNode? {child : Nat} (single : g.nameNode? id = some child) :
    child ∈ g.children id := by
  obtain ⟨named, _⟩ := Option.filter_eq_some_iff.1 single
  unfold Arena.nameClass? at named
  split at named
  · exact List.mem_of_find?_eq_some named
  · cases named

theorem writes_iff {holder : Nat} : g.Writes id holder name ↔
    g.declaredName? id = some name ∧ (g.nameNode? id).getD id = holder := by
  constructor
  · intro writes
    cases writes with
    | named written => simp [Arena.declaredName?, written, nameNode?_of_name? written]
    | content silent single => simp [Arena.declaredName?, silent, single]
  · rintro ⟨declared, rfl⟩
    unfold Arena.declaredName? at declared
    cases written : (g.node id).name? with
    | some written =>
      rw [written] at declared
      cases declared
      rw [nameNode?_of_name? written]
      exact .named written
    | none =>
      rw [written] at declared
      obtain ⟨child, single, rfl⟩ := Option.map_eq_some_iff.1 declared
      rw [single]
      exact .content written single

section Scoped

variable {address : Address} (there : addresses[(g.nameNode? id).getD id]? = some address)
  (scopes : g.ScopedAs ((g.nameNode? id).getD id) root address)

include there scopes

/-- The qualifier of the name stands for what it is resolved to where the name is written. -/
theorem qualifiedNamespace?_eq_some_iff : g.qualifiedNamespace? id = some uri ↔
    g.SaysAt root addresses id .qualifier uri := by
  rw [Arena.qualifiedNamespace?, Option.bind_eq_some_iff]
  constructor
  · rintro ⟨name, declared, found⟩
    have writes := writes_iff.2 ⟨declared, rfl⟩
    obtain ⟨qualifier, qualified, stands⟩ := (scopes.resolved name uri).1 found
    split at stands
    · rename_i xml
      subst xml stands
      exact .xml writes qualified
    · rename_i other
      exact .bound writes qualified other there stands
  · intro said
    cases said with
    | xml writes qualified =>
      obtain ⟨declared, rfl⟩ := writes_iff.1 writes
      exact ⟨_, declared, (scopes.resolved _ _).2 ⟨_, qualified, by simp⟩⟩
    | bound writes qualified other also binds =>
      obtain ⟨declared, rfl⟩ := writes_iff.1 writes
      cases there.symm.trans also
      exact ⟨_, declared, (scopes.resolved _ _).2 ⟨_, qualified, by rwa [if_neg other]⟩⟩

theorem nsAt?_eq_some_iff : g.nsAt? id level = some uri ↔ g.SaysAt root addresses id level uri := by
  cases level with
  | qualifier => exact qualifiedNamespace?_eq_some_iff there scopes
  | singleName =>
    rw [nsAt?, Option.bind_eq_some_iff]
    constructor
    · intro ⟨child, single, said⟩
      exact .singleName single said
    · intro | .singleName single said => exact ⟨_, single, said⟩
  | own => exact ⟨.own, fun | .own said => said⟩
  | around outer => exact ⟨.around, fun | .around said => said⟩

theorem verdict?_eq_none_iff : g.verdict? id level = none ↔
    ∀ uri, ¬ g.SaysAt root addresses id level uri := by
  rw [verdict?, Option.map_eq_none_iff, Option.eq_none_iff_forall_ne_some]
  exact forall_congr' fun uri => not_congr (nsAt?_eq_some_iff there scopes)

/-- The nearest level that says something decides on the namespace. -/
theorem hasNamespace_iff {ns : Option String} :
    g.HasNamespace root addresses id ns ↔ g.namespaceOf? id = ns := by
  rw [namespaceOf?_eq_findSome?]
  constructor
  · intro has
    cases has with
    | @decided level uri among said nearest =>
      have found : (g.nsLevels id).findSome? (g.verdict? id) = some (level.namespace uri) := by
        refine findSome?_eq_some_iff_takeWhile.2 ⟨level, among, ?_, fun nearer member => ?_⟩
        · rw [verdict?, (nsAt?_eq_some_iff there scopes).2 said]
          rfl
        · exact (verdict?_eq_none_iff there scopes).2 (nearest nearer member)
      rw [found]
      rfl
    | undecided silent =>
      have absent : (g.nsLevels id).findSome? (g.verdict? id) = none :=
        List.findSome?_eq_none_iff.2 fun level member =>
          (verdict?_eq_none_iff there scopes).2 (silent level member)
      rw [absent]
      rfl
  · rintro rfl
    cases first : (g.nsLevels id).findSome? (g.verdict? id) with
    | none =>
      refine .undecided fun level member => ?_
      exact (verdict?_eq_none_iff there scopes).1 (List.findSome?_eq_none_iff.1 first level member)
    | some verdict =>
      obtain ⟨level, among, found, nearest⟩ := findSome?_eq_some_iff_takeWhile.1 first
      obtain ⟨uri, said, rfl⟩ := Option.map_eq_some_iff.1 found
      refine .decided among ((nsAt?_eq_some_iff there scopes).1 said) fun nearer member => ?_
      exact (verdict?_eq_none_iff there scopes).1 (nearest nearer member)

end Scoped

/-- What is first found is the same with another finding at one entry, if something is found before
that entry or it is not there at all. -/
theorem findSome?_congr_before {α β : Type} [DecidableEq α] {f f' : α → Option β} {far : α}
    (same : ∀ entry, entry ≠ far → f' entry = f entry) {entries : List α}
    (before : (∃ entry ∈ entries.takeWhile fun entry => entry ≠ far, f entry ≠ none) ∨
      far ∉ entries) : entries.findSome? f' = entries.findSome? f := by
  induction entries with
  | nil => rfl
  | cons first rest ih =>
    by_cases here : first = far
    · simp [here] at before
    · rw [List.findSome?_cons, List.findSome?_cons, same first here]
      cases found : f first with
      | some value => rfl
      | none =>
        apply ih
        simpa [here, Ne.symm here, found] using before

namespace Amends

variable {attributes : List (String × String)} (amends : g.Amends h outer attributes)

include amends

theorem node_eq (id : Nat) :
    h.node id = { g.node id with attributes := (h.node id).attributes } := by
  by_cases edited : id = outer
  · rw [edited, amends.edited]
  · rw [amends.node id edited]

theorem kind (id : Nat) : h.kind id = g.kind id := by
  have same := congrArg Node.kind (amends.node_eq id)
  exact same

theorem children (id : Nat) : h.children id = g.children id := by
  have same := congrArg Node.children (amends.node_eq id)
  exact same

theorem content (id : Nat) : (h.node id).content = (g.node id).content := by
  have same := congrArg Node.content (amends.node_eq id)
  exact same

theorem ancestors (id : Nat) : h.ancestors id = g.ancestors id := by
  have aligned : g.Aligned h fun id => id := by
    refine ⟨Function.bijective_id, amends.kind, fun id => ?_⟩
    have same := congrArg Node.parent (amends.node_eq id)
    rw [Option.map_id']
    exact same
  rw [aligned.ancestors id, List.map_id']

theorem scopes (id : Nat) : h.scopes id = g.scopes id := by
  rw [Arena.scopes, Arena.scopes, amends.ancestors]
  refine List.map_congr_left fun node _ => ?_
  have same := congrArg Node.prefixes (amends.node_eq node)
  exact same

theorem ns?_of_ne (other : id ≠ outer) : h.ns? id = g.ns? id := by
  rw [Arena.ns?, Arena.ns?, amends.node id other]

theorem nsLevels (id : Nat) : h.nsLevels id = g.nsLevels id := by
  rw [Grammar.nsLevels, Grammar.nsLevels, amends.kind, amends.ancestors]

section Rest

variable (rest : ∀ name, name ≠ "ns" → attributes.lookup name = (g.node outer).attribute? name)

include rest

theorem name? (id : Nat) : (h.node id).name? = (g.node id).name? := by
  by_cases edited : id = outer
  · rw [edited, amends.edited]
    exact rest "name" (by decide)
  · rw [amends.node id edited]

theorem nameNode? (id : Nat) : h.nameNode? id = g.nameNode? id := by
  simp only [Arena.nameNode?, Arena.nameClass?, amends.kind, amends.name? rest, amends.children]

theorem qualifiedNamespace? (id : Nat) : h.qualifiedNamespace? id = g.qualifiedNamespace? id := by
  simp only [Arena.qualifiedNamespace?, Arena.declaredName?, amends.name? rest,
    amends.nameNode? rest, amends.content, amends.scopes]

/-- Every level but the one of the changed `ns` says what it said. -/
theorem nsAt?_of_ne (above : outer ∈ g.ancestors id) (other : level ≠ .around outer) :
    h.nsAt? id level = g.nsAt? id level := by
  have below := lt_of_mem_ancestors above
  cases level with
  | qualifier => exact amends.qualifiedNamespace? rest id
  | singleName =>
    rw [nsAt?, nsAt?, amends.nameNode? rest]
    cases single : g.nameNode? id with
    | none => rfl
    | some child =>
      have inside := g.lt_of_mem_children (mem_children_of_nameNode? single)
      exact amends.ns?_of_ne (Nat.ne_of_gt (Nat.lt_trans below inside))
  | own => exact amends.ns?_of_ne (Nat.ne_of_gt below)
  | around further => exact amends.ns?_of_ne fun same => other (same ▸ rfl)

/-- The namespace of a pattern is the same with another `ns` on a node around it, if a nearer level
says something or the nodes around do not count. -/
theorem namespaceOf?_eq (above : outer ∈ g.ancestors id)
    (before : (∃ level ∈ g.nearerLevels id (.around outer), g.verdict? id level ≠ none) ∨
      .around outer ∉ g.nsLevels id) : h.namespaceOf? id = g.namespaceOf? id := by
  rw [namespaceOf?_eq_findSome?, namespaceOf?_eq_findSome?, amends.nsLevels]
  refine congrArg _ (findSome?_congr_before (fun level other => ?_) before)
  rw [verdict?, verdict?, amends.nsAt?_of_ne rest above other]

end Rest

end Amends

end Grammar

/-- A tag that says the same as another, but for its `ns`. -/
structure Xml.Tag.AlikeButNs (tag other : Tag) : Prop where
  name : other.name = tag.name
  declarations : other.declarations = tag.declarations
  attributes : (other.attributes.filter fun a => a.name ≠ ⟨none, "ns"⟩) =
    tag.attributes.filter fun a => a.name ≠ ⟨none, "ns"⟩

theorem lookup_plainAttributes_filter {name : String} (other : name ≠ "ns")
    (attributes : List Xml.Attribute) :
    (plainAttributes (attributes.filter fun a => a.name ≠ ⟨none, "ns"⟩)).lookup name =
      (plainAttributes attributes).lookup name := by
  induction attributes with
  | nil => rfl
  | cons a rest ih =>
    by_cases dropped : a.name = ⟨none, "ns"⟩
    · have head : plainAttributes (a :: rest) = ("ns", a.value) :: plainAttributes rest := by
        simp [plainAttributes, dropped]
      rw [List.filter_cons_of_neg (by simpa using dropped), ih, head, lookup_cons_ite, if_neg other]
    · rw [List.filter_cons_of_pos (by simpa using dropped)]
      unfold plainAttributes at ih ⊢
      rw [List.filterMap_cons, List.filterMap_cons]
      split
      · exact ih
      · rw [lookup_cons_ite, lookup_cons_ite, ih]

theorem Xml.Tag.AlikeButNs.lookup_eq {tag fresh : Tag} (alike : tag.AlikeButNs fresh)
    {name : String} (other : name ≠ "ns") : (plainAttributes fresh.attributes).lookup name =
      (plainAttributes tag.attributes).lookup name := by
  rw [← lookup_plainAttributes_filter other, alike.attributes, lookup_plainAttributes_filter other]

namespace Grammar

variable {g : Grammar} {limits : Limits} {document : Xml.Document}

/-- The name of a pattern is written on a node. -/
theorem Enumerates.exists_holder {root : Xml.Node} {addresses : List Address}
    (enumerates : g.Enumerates root addresses) {id : Nat}
    (pattern : g.kind id = .element ∨ g.kind id = .attr) :
    ∃ address, addresses[(g.nameNode? id).getD id]? = some address := by
  apply enumerates.exists_address
  cases single : g.nameNode? id with
  | none =>
    apply g.lt_size_of_kind
    rcases pattern with kind | kind <;> rw [Option.getD_none, kind] <;> decide
  | some child => exact g.child_lt_size (mem_children_of_nameNode? single)

theorem hasNamespace_iff_of_read (once : document.toNode.DeclaresOnce)
    (read : ofDocument limits document = .ok g) {id : Nat}
    (pattern : g.kind id = .element ∨ g.kind id = .attr) {ns : Option String} :
    g.HasNamespace document.toNode (keptAddresses document.toNode) id ns ↔
      g.namespaceOf? id = ns := by
  obtain ⟨address, there⟩ := (enumerates_of_read read).exists_holder pattern
  exact hasNamespace_iff there (scopedAs_of_read read once there)

/-- What is decided to hold of a text holds of its document and its grammar. -/
theorem exists_read {text : String} {limits : Limits} {holds : Xml.Document → Grammar → Prop}
    [∀ document g, Decidable (holds document g)]
    (known : ((Xml.Document.ofText text).toOption.bind fun document =>
      (ofDocument limits document).toOption.map fun g => decide (holds document g)) = some true) :
    ∃ document g, Xml.Document.ofText text = .ok document ∧ ofDocument limits document = .ok g ∧
      holds document g := by
  cases written : Xml.Document.ofText text with
  | error fault =>
    rw [written] at known
    cases known
  | ok document =>
    rw [written, Except.toOption, Option.bind_some] at known
    cases read : ofDocument limits document with
    | error fault =>
      rw [read] at known
      cases known
    | ok g =>
      rw [read] at known
      exact ⟨document, g, rfl, read, of_decide_eq_true (Option.some.inj known)⟩

/-- A schema with an element that has a qualified name and an `ns`, and in it one that has an empty
`ns`. -/
def layeredText : String :=
  "<grammar xmlns=\"http://relaxng.org/ns/structure/1.0\" xmlns:x=\"urn:x\" ns=\"urn:far\">" ++
    "<start><element name=\"x:a\" ns=\"urn:near\"><element name=\"b\" ns=\"\"><empty/></element>" ++
    "<element name=\"c\"><empty/></element></element></start></grammar>"

/-- The tag of the outer element, with some `ns` or none. -/
def layeredTag (ns : Option String) : Xml.Tag :=
  ⟨⟨some Namespace.structural, "element"⟩,
    ⟨⟨none, "name"⟩, "x:a"⟩ :: ns.toList.map fun ns => ⟨⟨none, "ns"⟩, ns⟩, []⟩

theorem layered_facts : ((Xml.Document.ofText layeredText).toOption.bind fun document =>
    (ofDocument .standard document).toOption.map fun g => decide (
      (keptAddresses document.toNode)[2]? = some [0, 0] ∧
        (document.toNode.at? [0, 0]).bind Xml.Node.tag? = some (layeredTag (some "urn:near")) ∧
        g.kind 2 = .element ∧ g.kind 3 = .element ∧ g.ancestors 3 = [2, 1, 0] ∧
        g.ns? 3 = some "" ∧ g.namespaceOf? 2 = some "urn:x" ∧ g.namespaceOf? 3 = none)) =
    some true := by decide +kernel

end Grammar

end RelaxDoc
