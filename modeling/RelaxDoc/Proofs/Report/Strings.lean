import RelaxDoc.Proofs.Report.Sheets
import RelaxDoc.Proofs.Xml.Reading

/-! The strings of the XML report. The values of attributes are the names of elements, types and
parameters and the values that a type lists; all other strings are texts in elements. -/
namespace RelaxDoc

section Strings

variable (p q : String → Prop)

/-- The values of attributes in the report of a type satisfy `p`, and the texts in elements `q`. -/
def AttributeType.Holds : AttributeType → Prop
  | .primitive datatype =>
    p datatype.name ∧ q datatype.description ∧ ∀ param ∈ datatype.params, p param.name ∧ q param.value
  | .enumeration values => ∀ value ∈ values, p value.value ∧ q value.description
  | .text | .unknown => True

/-- The values of attributes in the report of an attribute satisfy `p`, and the texts in
elements `q`. -/
structure AttributeRecord.Holds (record : AttributeRecord) : Prop where
  name : q record.name
  uri : ∀ uri ∈ record.uri, q uri
  description : q record.description
  type : record.type.Holds p q

/-- The values of attributes in the report of an element satisfy `p`, and the texts in
elements `q`. -/
structure ElementRecord.Holds (record : ElementRecord) : Prop where
  name : p record.name
  uri : ∀ uri ∈ record.uri, q uri
  description : q record.description
  attributes : ∀ inside ∈ record.attributes, inside.Holds p q

/-- The values of attributes in the report satisfy `p`, and the texts in elements `q`. -/
def Documentation.Holds (documentation : Documentation) : Prop :=
  ∀ record ∈ documentation.elements, record.Holds p q

/-- The strings that the report has of its own, and numbers, satisfy `p` and `q` where they are. -/
structure OwnStrings : Prop where
  number : ∀ n : Nat, p (toString n)
  text : p "text"
  enum : p "enum"
  use : ∀ use : Use, q use.text
  empty : q ""

end Strings

namespace Report

open Xml

variable {p q : String → Prop}

theorem bare_holds (name : Word) : (bare name).Holds p := nofun

theorem marked_holds {name field : Word} {value : String} :
    (marked name field value).Holds p ↔ p value := by
  simp [marked, Heading.Holds]

theorem holdsAll_iff {sheets : List Sheet} : HoldsAll p q sheets ↔ ∀ sheet ∈ sheets, sheet.Holds p q := by
  induction sheets with
  | nil => simp [HoldsAll]
  | cons sheet rest ih => rw [HoldsAll, ih, List.forall_mem_cons]

theorem holds_ofContent {heading : Heading} {content : List Sheet} :
    (Sheet.ofContent heading content).Holds p q ↔
      heading.Holds p ∧ ∀ sheet ∈ content, sheet.Holds p q := by
  cases content with
  | nil => simp [Sheet.ofContent, Sheet.Holds]
  | cons first rest =>
    rw [Sheet.ofContent, Sheet.Holds, holdsAll_iff, List.forall_mem_cons]

section OwnStrings

variable (own : OwnStrings p q)

include own

theorem textSheet_holds {name : Word} {text : String} : (textSheet name text).Holds p q ↔ q text := by
  unfold textSheet
  split
  · rename_i empty
    simp [Sheet.Holds, bare_holds, empty, own.empty]
  · simp [Sheet.Holds, bare_holds]

theorem describing_holds {text : String} : (∀ sheet ∈ describing text, sheet.Holds p q) ↔ q text := by
  unfold describing
  split
  · rename_i empty
    simp [empty, own.empty]
  · simp [textSheet_holds own]

theorem typeSheet_holds {type : AttributeType} : (typeSheet type).Holds p q ↔ type.Holds p q := by
  rw [typeSheet, holds_ofContent]
  cases type with
  | primitive datatype =>
    simp only [AttributeType.name?, typeHeading, marked_holds, typeContent, List.forall_mem_append,
      describing_holds own, List.forall_mem_map, paramSheet, Sheet.Holds, AttributeType.Holds]
  | text =>
    simp [AttributeType.name?, typeHeading, marked_holds, typeContent, AttributeType.Holds, own.text]
  | enumeration values =>
    simp [AttributeType.name?, typeHeading, marked_holds, typeContent, AttributeType.Holds, own.enum,
      enumValueSheet, holds_ofContent, describing_holds own]
  | unknown => simp [AttributeType.name?, typeHeading, bare_holds, typeContent, AttributeType.Holds]

theorem uri_holds {uri : Option String} : q (uri.getD "") ↔ ∀ uri' ∈ uri, q uri' := by
  cases uri <;> simp [own.empty]

theorem attributeSheet_holds {record : AttributeRecord} :
    (attributeSheet record).Holds p q ↔ record.Holds p q := by
  simp only [attributeSheet, Sheet.Holds, HoldsAll, bare_holds, textSheet_holds own, uri_holds own,
    typeSheet_holds own, own.use, true_and, and_true]
  constructor
  · rintro ⟨name, uri, description, type⟩
    exact ⟨name, uri, description, type⟩
  · rintro ⟨name, uri, description, type⟩
    exact ⟨name, uri, description, type⟩

theorem childSheet_holds (child : ChildRef) : (childSheet child).Holds p q :=
  marked_holds.2 (own.number child.id)

theorem elementSheet_holds {record : ElementRecord} :
    (elementSheet record).Holds p q ↔ record.Holds p q := by
  have heading : (elementHeading record).Holds p ↔ p record.name := by
    simp only [elementHeading, Heading.Holds, List.forall_mem_cons, List.not_mem_nil, own.number,
      false_implies, implies_true, and_true]
  simp only [elementSheet, Sheet.Holds, HoldsAll, heading, textSheet_holds own, uri_holds own,
    holdsAll_iff, List.forall_mem_append, List.forall_mem_map, childSheet_holds own,
    attributeSheet_holds own, implies_true, true_and]
  constructor
  · rintro ⟨name, uri, description, attributes⟩
    exact ⟨name, uri, description, attributes⟩
  · rintro ⟨name, uri, description, attributes⟩
    exact ⟨name, uri, description, attributes⟩

/-- The strings of the sheet are those of the records, and strings of the report itself. -/
theorem sheet_holds {documentation : Documentation} :
    (sheet documentation).Holds p q ↔ documentation.Holds p q := by
  simp only [sheet, holds_ofContent, bare_holds, List.forall_mem_map, elementSheet_holds own, true_and]
  rfl

end OwnStrings

theorem isAlphanum_of_mem_toString {n : Nat} {c : Char} (mem : c ∈ (toString n).toList) :
    c.isAlphanum = true := by
  rw [Nat.toString_eq_ofList_toDigits, String.toList_ofList] at mem
  have digit : c.isDigit = true := Nat.isDigit_of_mem_toDigits (by decide) (by decide) mem
  rw [Char.isAlphanum, digit, Bool.or_true]

theorem isAlphanum_of_all {text : String} (all : text.toList.all Char.isAlphanum = true) {c : Char}
    (mem : c ∈ text.toList) : c.isAlphanum = true := List.all_eq_true.1 all c mem

/-- Numbers and the strings that the report has of its own are made of letters and digits. -/
theorem ownStrings_of_isAlphanum {p q : Char → Prop} (values : ∀ c, c.isAlphanum = true → p c)
    (texts : ∀ c, c.isAlphanum = true → q c) :
    OwnStrings (fun value => ∀ c ∈ value.toList, p c) fun text => ∀ c ∈ text.toList, q c where
  number n c mem := values c (isAlphanum_of_mem_toString mem)
  text c mem := values c (isAlphanum_of_all (by decide) mem)
  enum c mem := values c (isAlphanum_of_all (by decide) mem)
  use use c mem := by
    refine texts c ?_
    cases use
    · exact isAlphanum_of_all (by decide) mem
    · exact isAlphanum_of_all (by decide) mem
  empty c mem := absurd mem (by simp)

end Report

end RelaxDoc
