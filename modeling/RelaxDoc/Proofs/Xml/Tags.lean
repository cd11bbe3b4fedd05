import RelaxDoc.Proofs.Grammar.Retention
import RelaxDoc.Proofs.Xml.LegalNodes

/-! The tags of a document that is read from a text. The name of a tag is that of a start tag, its
declarations and attributes are pending until then, also those of start tags that were cut. What
holds of a tag however it is put together from these, holds of all tags of the document. -/
namespace RelaxDoc.Xml

/-- All elements of a node have tags with a property. -/
def Node.HasTags (P : Tag → Prop) (node : Node) : Prop :=
  ∀ address tag children, node.at? address = some (.element tag children) → P tag

theorem Node.hasTags_element {P : Tag → Prop} {tag : Tag} {children : List Node} :
    (Node.element tag children).HasTags P ↔ P tag ∧ ∀ node ∈ children, node.HasTags P := by
  constructor
  · intro holds
    refine ⟨holds [] tag children rfl, fun node member address inner below found => ?_⟩
    obtain ⟨index, here⟩ := List.mem_iff_getElem?.1 member
    exact holds (index :: address) inner below (at?_cons.2 ⟨node, here, found⟩)
  · intro ⟨here, inside⟩ address inner below found
    cases address with
    | nil =>
      cases found
      exact here
    | cons index rest =>
      obtain ⟨child, there, found⟩ := at?_cons.1 found
      exact inside child (List.mem_of_getElem? there) rest inner below found

/-- There is no element in a node that is none. -/
theorem Node.hasTags_of_tag? {P : Tag → Prop} {node : Node} (leaf : node.tag? = none) :
    node.HasTags P := by
  intro address tag children found
  cases node with
  | element => cases leaf
  | text | comment | instruction =>
    cases address with
    | nil => cases found
    | cons index rest =>
      obtain ⟨child, none, _⟩ := at?_cons.1 found
      cases none

/-- What holds of a tag by what was pending in front of it and by its name. -/
structure TagRule (P : Tag → Prop) (Q : Pending → Prop) : Prop where
  nothing : Q .none
  add : ∀ pending assignments more, Q pending → pending.add assignments = .ok more → Q more
  tag : ∀ pending outer name tag, Q pending → name.Proper → pending.tag outer name = .ok tag → P tag

/-- What is read so far has tags with a property. -/
structure Progress.HasTags (P : Tag → Prop) (Q : Pending → Prop) (p : Progress) : Prop where
  opened : ∀ element ∈ p.open?, P element.tag ∧ ∀ node ∈ element.content, node.HasTags P
  finished : ∀ node ∈ p.finished, node.HasTags P
  pending : Q p.pending

namespace Progress.HasTags

variable {P : Tag → Prop} {Q : Pending → Prop} {p p' : Progress}

theorem add (has : p.HasTags P Q) {node : Node} (here : node.HasTags P) :
    (p.add node).HasTags P Q := by
  obtain ⟨opened, finished, pending⟩ := has
  unfold Progress.add
  split
  · exact ⟨opened, List.forall_mem_cons.2 ⟨here, finished⟩, pending⟩
  · rename_i innermost outer eq
    rw [eq, List.forall_mem_cons] at opened
    refine ⟨List.forall_mem_cons.2 ⟨⟨opened.1.1, ?_⟩, opened.2⟩, finished, pending⟩
    exact List.forall_mem_cons.2 ⟨here, opened.1.2⟩

theorem finish (rule : TagRule P Q) (has : p.HasTags P Q) {name : WrittenName}
    (read : p.finish name = .ok p') : p'.HasTags P Q := by
  obtain ⟨opened, finished, pending⟩ := has
  unfold Progress.finish at read
  split at read
  · cases read
  · rename_i innermost outer eq
    rw [eq, List.forall_mem_cons] at opened
    have outside : ({ p with open? := outer, pending := .none } : Progress).HasTags P Q :=
      ⟨opened.2, finished, rule.nothing⟩
    dsimp only at read
    split at read
    · cases read
    · obtain ⟨_, -, read⟩ := exists_of_bind read
      split at read
      · cases read
      · cases read
        refine outside.add (Node.hasTags_element.2 ⟨opened.1.1, fun node member => ?_⟩)
        exact opened.1.2 node (List.mem_reverse.1 member)

theorem begin (rule : TagRule P Q) (has : p.HasTags P Q) {name : WrittenName} (proper : name.Proper)
    {assignments : List Assignment} {ending : TagEnd}
    (read : p.begin name assignments ending = .ok p') : p'.HasTags P Q := by
  obtain ⟨opened, finished, pending⟩ := has
  obtain ⟨_, -, read⟩ := exists_of_bind read
  obtain ⟨pending', added, read⟩ := exists_of_bind read
  have more := rule.add _ _ _ pending added
  split at read
  · cases read
    exact ⟨opened, finished, more⟩
  · obtain ⟨tag, expanded, read⟩ := exists_of_bind read
    have here := rule.tag _ _ _ _ more proper expanded
    dsimp only at read
    split at read <;> cases read
    · have begun : ({ p with started := true, pending := .none } : Progress).HasTags P Q :=
        ⟨opened, finished, rule.nothing⟩
      exact begun.add (Node.hasTags_element.2 ⟨here, nofun⟩)
    · exact ⟨List.forall_mem_cons.2 ⟨⟨here, nofun⟩, opened⟩, finished, rule.nothing⟩

theorem invariant (rule : TagRule P Q) (entities : List Entity) :
    Invariant entities (HasTags P Q) where
  aside _ _ _ has := ⟨has.opened, has.finished, has.pending⟩
  text _ _ _ has := has.add (Node.hasTags_of_tag? rfl)
  comment _ _ has := has.add (Node.hasTags_of_tag? rfl)
  instruction _ _ _ has := has.add (Node.hasTags_of_tag? rfl)
  begin _ _ _ _ _ proper _ has read := has.begin rule proper read
  finish _ _ _ has read := has.finish rule read

end Progress.HasTags

/-- All tags of a document that is read from a text keep a rule of how tags are put together. -/
theorem Document.hasTags_of_ofText {P : Tag → Prop} {Q : Pending → Prop} (rule : TagRule P Q)
    {text : String} {document : Document} (read : ofText text = .ok document) :
    document.toNode.HasTags P := by
  have start : Progress.start.HasTags P Q := ⟨nofun, nofun, rule.nothing⟩
  obtain ⟨outline, outlined, -⟩ := exists_of_bind read
  obtain ⟨p, has, member⟩ :=
    exists_progress_of_ofText outlined (Progress.HasTags.invariant rule _) start read
  exact has.finished _ member

/-- A tag whose local name has only characters of names. -/
def Tag.Named (tag : Tag) : Prop := ∀ c ∈ tag.name.localName.toList, isNameChar c = true

theorem localName_elementName {scope : Scope} {name : WrittenName} {found : Name}
    (expanded : elementName scope name = .ok found) : found.localName = name.localName := by
  unfold elementName at expanded
  split at expanded
  · cases expanded
    rfl
  · obtain ⟨uri, -, eq⟩ := exists_of_bind expanded
    cases eq
    rfl

theorem tagRule_named : TagRule Tag.Named fun _ => True where
  nothing := trivial
  add _ _ _ _ _ := trivial
  tag pending outer name tag _ proper read := by
    obtain ⟨tagName, expanded, eq⟩ := exists_of_bind read
    obtain ⟨attributes, -, eq⟩ := exists_of_bind eq
    cases eq
    rw [Tag.Named, localName_elementName expanded]
    exact proper

/-- The elements of a document that is read from a text have proper names. -/
theorem Document.named_of_ofText {text : String} {document : Document}
    (read : ofText text = .ok document) : document.toNode.HasTags Tag.Named :=
  hasTags_of_ofText tagRule_named read

end RelaxDoc.Xml
