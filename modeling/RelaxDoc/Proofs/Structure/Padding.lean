import RelaxDoc.Proofs.Grammar.Kinship
import RelaxDoc.Proofs.Structure.Retagging
import RelaxDoc.Proofs.Text.Trimming

/-! White space around names. A grammar trims it away, and so does the check for elements and
attributes; for definitions and references it does not. -/
namespace RelaxDoc

open Xml (Address)

/-- The tag with texts in front of its `name` and behind it. -/
def Xml.Tag.padName (before after : String) (tag : Tag) : Tag where
  name := tag.name
  attributes := tag.attributes.map fun a =>
    if a.name = ⟨none, "name"⟩ then ⟨a.name, before ++ a.value ++ after⟩ else a
  declarations := tag.declarations

/-- The position of the element that the check reports, among all elements in document order. -/
def reported? (document : Xml.Document) : Option Nat :=
  (Site.all document).findIdx? fun site => site.violation?.isSome

section Padding

variable {document : Xml.Document} {tag : Xml.Tag} {children : List Xml.Node} {address : Address}
  {kind : Kind} {before after name : String}

theorem Xml.Tag.attribute?_padName (before after : String) (tag : Tag) :
    (tag.padName before after).attribute? "name" =
      (tag.attribute? "name").map fun name => before ++ name ++ after := by
  unfold attribute? padName
  rw [List.find?_map, Option.map_map, Option.map_map]
  have same : ((fun a : Attribute => decide (a.name = ⟨none, "name"⟩)) ∘ fun a : Attribute =>
      if a.name = ⟨none, "name"⟩ then ⟨a.name, before ++ a.value ++ after⟩ else a) =
        fun a : Attribute => decide (a.name = ⟨none, "name"⟩) := by
    funext a
    by_cases named : a.name = ⟨none, "name"⟩ <;> simp [named]
  rw [same]
  cases found : tag.attributes.find? fun a => decide (a.name = ⟨none, "name"⟩) with
  | none => rfl
  | some a =>
    have named : a.name = ⟨none, "name"⟩ := by simpa using List.find?_some found
    simp [named]

section Blank

variable (lead : ∀ c ∈ before.toList, Text.isBlank c = true)
  (trail : ∀ c ∈ after.toList, Text.isBlank c = true)

include lead trail

/-- White space around a name is no news to a grammar. -/
theorem Xml.Tag.alike_padName (tag : Tag) : tag.Alike (tag.padName before after) where
  name := rfl
  declarations := rfl
  attributes := by
    unfold plainAttributes padName
    rw [List.filterMap_map]
    apply List.filterMap_congr
    intro a _
    by_cases named : a.name = ⟨none, "name"⟩
    · simp [named, Text.trimmed_append_append lead trail]
    · simp [named]

/-- Nor is it to the check, where the name is that of a pattern. -/
theorem Site.violation?_padName_of_pattern (known : Kind.ofTag? tag.name.localName = some kind)
    (pattern : kind = .element ∨ kind = .attr) (around : Option Xml.Name)
    (steps : List PathStep) :
    violation? ⟨tag.padName before after, children, around, steps⟩ =
      violation? ⟨tag, children, around, steps⟩ := by
  have name : (tag.padName before after).name = tag.name := rfl
  have same : patternName? ⟨tag.padName before after, children, around, steps⟩ =
      patternName? ⟨tag, children, around, steps⟩ := by
    simp only [patternName?, Xml.Tag.attribute?_padName, name]
    cases tag.attribute? "name" <;> simp [Text.trimmed_append_append lead trail]
  unfold violation? breach?
  simp only [name, known]
  rcases pattern with rfl | rfl <;> simp only [same] <;> rfl

/-- A definition or a reference is always reported with it. -/
theorem Site.violation?_padName_of_definition (structural : isStructural tag.name = true)
    (known : Kind.ofTag? tag.name.localName = some kind)
    (definition : kind = .define ∨ kind = .ref ∨ kind = .parentRef)
    (named : tag.attribute? "name" = some name) (filled : before ≠ "" ∨ after ≠ "")
    (around : Option Xml.Name) (steps : List PathStep) :
    (violation? ⟨tag.padName before after, children, around, steps⟩).isSome = true := by
  have broken : definitionName? ⟨tag.padName before after, children, around, steps⟩ =
      some (.badDefinitionName (before ++ name ++ after)) := by
    simp [definitionName?, Xml.Tag.attribute?_padName, named,
      Name.isSimple_append_append lead trail filled]
  have name : (tag.padName before after).name = tag.name := rfl
  unfold violation? breach?
  simp only [name, structural, known]
  rcases definition with rfl | rfl | rfl <;> simp [broken]

end Blank

/-- Another breach at one place: it is the first one, unless there is one in front of it. -/
theorem findIdx?_of_breach {front back : List (Option Violation)} {one other : Option Violation}
    (broken : other.isSome = true) : (front ++ other :: back).findIdx? Option.isSome =
      some (min front.length
        (((front ++ one :: back).findIdx? Option.isSome).getD front.length)) := by
  rw [List.findIdx?_append, List.findIdx?_append]
  cases first : front.findIdx? Option.isSome with
  | some position =>
    have inside : position < front.length := by
      obtain ⟨inside, _⟩ := List.findIdx?_eq_some_iff_getElem.1 first
      exact inside
    simp [Nat.min_eq_right (Nat.le_of_lt inside)]
  | none =>
    rw [List.findIdx?_cons, broken]
    cases behind : (one :: back).findIdx? Option.isSome <;> simp

theorem reported?_eq (document : Xml.Document) :
    reported? document = ((Site.all document).map Site.violation?).findIdx? Option.isSome := by
  rw [List.findIdx?_map]
  rfl

theorem checkStructure_ne_ok_iff :
    checkStructure document ≠ .ok () ↔ ∃ position, reported? document = some position := by
  rw [← Option.isSome_iff_exists, reported?, List.findIdx?_isSome, checkStructure]
  cases found : (Site.all document).findSome? Site.violation? with
  | none => simpa using found
  | some violation =>
    obtain ⟨site, among, there⟩ := List.exists_of_findSome?_eq_some found
    have broken : ∃ site ∈ Site.all document, site.violation?.isSome = true :=
      ⟨site, among, by rw [there]; rfl⟩
    simpa using broken

/-- What the check says depends on what it finds at the elements. -/
theorem check_congr {other : Xml.Document}
    (same : (Site.all other).map Site.violation? = (Site.all document).map Site.violation?) :
    checkStructure other = checkStructure document ∧ reported? other = reported? document := by
  have first (document : Xml.Document) : (Site.all document).findSome? Site.violation? =
      ((Site.all document).map Site.violation?).findSome? id := by
    rw [List.findSome?_map]
    rfl
  unfold checkStructure
  rw [reported?_eq, reported?_eq, first, first, same]
  exact ⟨rfl, rfl⟩

/-- White space around the `name` of an element is no news to a grammar, nor to the check where it
is the name of an element or attribute pattern. Around the name of a definition or a reference it
is a breach, and the first one unless an element in front of it is reported as it is. -/
theorem reported?_padName (limits : Limits) (document : Xml.Document) (address : Address)
    (found : document.toNode.at? address = some (.element tag children))
    (structural : isStructural tag.name = true)
    (known : Kind.ofTag? tag.name.localName = some kind)
    (named : tag.attribute? "name" = some name)
    (lead : ∀ c ∈ before.toList, Text.isBlank c = true)
    (trail : ∀ c ∈ after.toList, Text.isBlank c = true) :
    let padded := document.retag (tag.padName before after) address
    let position := document.toNode.elementsBefore address
    Grammar.ofDocument limits padded = Grammar.ofDocument limits document ∧
    (kind = .element ∨ kind = .attr →
      checkStructure padded = checkStructure document ∧
        reported? padded = reported? document) ∧
    (kind = .define ∨ kind = .ref ∨ kind = .parentRef → before ≠ "" ∨ after ≠ "" →
      checkStructure padded ≠ .ok () ∧
        reported? padded = some (min position ((reported? document).getD position))) := by
  intro padded position
  obtain ⟨front, back, around, further, length, split⟩ :=
    Site.exists_violations_retag found none [⟨document.root.name.localName, none⟩]
  have whole : (Site.all document).map Site.violation? =
      front ++ Site.violation? ⟨tag, children, around, further⟩ :: back := by
    have unchanged := split tag rfl
    rwa [Xml.Node.retag_self found] at unchanged
  have root : padded.root.name = document.root.name := Xml.Document.name_retag found rfl
  have changed : (Site.all padded).map Site.violation? =
      front ++ Site.violation? ⟨tag.padName before after, children, around, further⟩ :: back := by
    rw [Site.all, Xml.Document.toNode_retag, root]
    exact split _ rfl
  refine ⟨Grammar.ofDocument_retag limits found (Xml.Tag.alike_padName lead trail tag), ?_, ?_⟩
  · intro pattern
    apply check_congr
    rw [changed, whole, Site.violation?_padName_of_pattern lead trail known pattern]
  · intro definition filled
    have broken : reported? padded =
        some (min position ((reported? document).getD position)) := by
      rw [reported?_eq, reported?_eq, changed, whole, ← show front.length = position from length]
      apply findIdx?_of_breach
      exact Site.violation?_padName_of_definition lead trail structural known definition named
        filled around further
    exact ⟨checkStructure_ne_ok_iff.2 ⟨_, broken⟩, broken⟩

/-- A definition and the reference to it. -/
def definedDocument : Xml.Document := .ofContent
  [.pattern .start none [.pattern .ref "x" []],
   .pattern .define "x" [.pattern .element "a" [.pattern .empty none []]]]

/-- The document with a space on each side of the name of the definition. -/
def paddedDocument : Xml.Document := .ofContent
  [.pattern .start none [.pattern .ref "x" []],
   .pattern .define " x " [.pattern .element "a" [.pattern .empty none []]]]

theorem padded_reported : checkStructure definedDocument = .ok () ∧
    Grammar.ofDocument .standard paddedDocument = Grammar.ofDocument .standard definedDocument ∧
    checkStructure paddedDocument ≠ .ok () ∧ reported? paddedDocument = some 3 := by
  have passed : checkStructure definedDocument = .ok () := by decide +kernel
  have blank : ∀ c ∈ " ".toList, Text.isBlank c = true := List.all_eq_true.1 rfl
  have unreported : reported? definedDocument = none := by decide +kernel
  obtain ⟨same, _, broken⟩ :=
    reported?_padName .standard definedDocument [1] rfl (by decide) rfl rfl blank blank
  obtain ⟨failed, reported⟩ := broken (.inl rfl) (.inl (by decide))
  rw [unreported] at reported
  exact ⟨passed, same, failed, reported⟩

/-- White space around a name can make a document fail the check that loads as before. -/
theorem exists_padded_name_reported : ¬ ∀ (document : Xml.Document) (address : Address)
    (tag : Xml.Tag) (children : List Xml.Node) (kind : Kind) (name before after : String),
    document.toNode.at? address = some (.element tag children) →
    isStructural tag.name = true → Kind.ofTag? tag.name.localName = some kind →
    kind ∈ [.element, .attr, .define, .ref, .parentRef] →
    tag.attribute? "name" = some name →
    (∀ c ∈ before.toList, Text.isBlank c = true) →
    (∀ c ∈ after.toList, Text.isBlank c = true) →
    (checkStructure (document.retag (tag.padName before after) address) = .ok () ↔
      checkStructure document = .ok ()) ∧
    reported? (document.retag (tag.padName before after) address) = reported? document := by
  intro all
  have blank : ∀ c ∈ " ".toList, Text.isBlank c = true := List.all_eq_true.1 rfl
  obtain ⟨_, same⟩ := all definedDocument [1] _ _ .define "x" " " " " rfl (by decide) rfl
    (by decide) rfl blank blank
  revert same
  decide +kernel

end Padding

end RelaxDoc
