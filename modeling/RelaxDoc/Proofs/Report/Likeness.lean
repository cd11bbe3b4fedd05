import RelaxDoc.Proofs.Report.Layout
import RelaxDoc.Proofs.Text.Parts
import Mathlib.Data.List.Forall2

/-! What the XML report tells apart. Two reports are the same text exactly if the documentations agree on
all that a report shows. -/
namespace RelaxDoc

/-- A type as the report shows it: a text, and a choice of no values, look like datatypes of these names
that nothing is said about. -/
def AttributeType.shown : AttributeType → AttributeType
  | .text => .primitive ⟨"text", "", []⟩
  | .enumeration [] => .primitive ⟨"enum", "", []⟩
  | type => type

/-- Two records that agree on what the report shows of an attribute. -/
structure AttributeRecord.Alike (one other : AttributeRecord) : Prop where
  name : one.name = other.name
  uri : one.uri.getD "" = other.uri.getD ""
  description : one.description = other.description
  use : one.use = other.use
  type : one.type.shown = other.type.shown

/-- Two records that agree on what the report shows of an element. -/
structure ElementRecord.Alike (one other : ElementRecord) : Prop where
  id : one.id = other.id
  name : one.name = other.name
  uri : one.uri.getD "" = other.uri.getD ""
  description : one.description = other.description
  children : one.children.map ChildRef.id = other.children.map ChildRef.id
  attributes : List.Forall₂ AttributeRecord.Alike one.attributes other.attributes

/-- Two documentations that agree on what the report shows. -/
def Documentation.Alike (one other : Documentation) : Prop :=
  List.Forall₂ ElementRecord.Alike one.elements other.elements

namespace Report

open Xml

theorem forall₂_of_map {α β : Type} {f : α → β} {r : α → α → Prop}
    (same : ∀ a b, f a = f b ↔ r a b) (one other : List α) :
    one.map f = other.map f ↔ List.Forall₂ r one other := by
  rw [← List.forall₂_eq_eq_eq, List.forall₂_map_left_iff, List.forall₂_map_right_iff]
  simp only [same]

/-- Two lists that each consist of a part with a property and a part without it are the same if the
parts are. -/
theorem append_inj_of_split {α : Type} {p : α → Bool} {one other rest rest' : List α}
    (inOne : ∀ a ∈ one, p a) (inOther : ∀ a ∈ other, p a) (inRest : ∀ a ∈ rest, p a = false)
    (inRest' : ∀ a ∈ rest', p a = false) :
    one ++ rest = other ++ rest' ↔ one = other ∧ rest = rest' := by
  constructor
  · intro same
    have parts := congrArg (List.filter p) same
    have none {part : List α} (lacks : ∀ a ∈ part, p a = false) : part.filter p = [] :=
      List.filter_eq_nil_iff.2 fun a mem => by simp [lacks a mem]
    simp only [List.filter_append, none inRest, none inRest', List.append_nil,
      List.filter_eq_self.2 inOne, List.filter_eq_self.2 inOther] at parts
    subst parts
    exact ⟨rfl, List.append_cancel_left same⟩
  · rintro ⟨rfl, rfl⟩
    rfl

theorem marked_inj {name field : Word} {one other : String} :
    marked name field one = marked name field other ↔ one = other := by
  simp [marked, Heading.ext_iff]

theorem textSheet_inj {name : Word} {one other : String} :
    textSheet name one = textSheet name other ↔ one = other := by
  by_cases empty : one = "" <;> by_cases empty' : other = "" <;> simp_all [textSheet, eq_comm]

theorem ofContent_inj {heading heading' : Heading} {one other : List Sheet} :
    Sheet.ofContent heading one = Sheet.ofContent heading' other ↔
      heading = heading' ∧ one = other := by
  cases one <;> cases other <;> simp [Sheet.ofContent]

theorem describing_inj {one other : String} : describing one = describing other ↔ one = other := by
  by_cases empty : one = "" <;> by_cases empty' : other = "" <;>
    simp_all [describing, textSheet_inj, eq_comm]

theorem paramSheet_inj {one other : Param} : paramSheet one = paramSheet other ↔ one = other := by
  cases one
  cases other
  simp [paramSheet, marked_inj]

theorem enumValueSheet_inj {one other : EnumValue} :
    enumValueSheet one = enumValueSheet other ↔ one = other := by
  cases one
  cases other
  simp [enumValueSheet, ofContent_inj, marked_inj, describing_inj]

theorem typeHeading_inj {one other : Option String} :
    typeHeading one = typeHeading other ↔ one = other := by
  cases one <;> cases other <;> simp [typeHeading, marked_inj]
  · simp [bare, marked, Heading.ext_iff]
  · simp [bare, marked, Heading.ext_iff]

/-- What elements that stand behind each other are told apart by. -/
def isNamed (name : Word) (sheet : Sheet) : Bool := sheet.heading.name = name

theorem isNamed_describing {text : String} :
    ∀ sheet ∈ describing text, isNamed descriptionWord sheet = true := by
  unfold describing
  split
  · simp
  · simp [isNamed, textSheet, Sheet.heading, bare]

theorem isNamed_params {params : List Param} :
    ∀ sheet ∈ params.map paramSheet, isNamed descriptionWord sheet = false := by
  simp only [List.forall_mem_map]
  intro param _
  rfl

theorem typeContent_primitive_inj {one other : Datatype} :
    typeContent (.primitive one) = typeContent (.primitive other) ↔
      one.description = other.description ∧ one.params = other.params := by
  rw [typeContent, typeContent, append_inj_of_split isNamed_describing isNamed_describing
    isNamed_params isNamed_params, describing_inj, forall₂_of_map fun _ _ => paramSheet_inj,
    List.forall₂_eq_eq_eq]

/-- A value is neither a description nor a parameter. -/
theorem typeContent_primitive_ne (datatype : Datatype) (value : EnumValue)
    (values : List EnumValue) :
    typeContent (.primitive datatype) ≠ typeContent (.enumeration (value :: values)) := by
  intro same
  have mem : enumValueSheet value ∈ typeContent (.primitive datatype) :=
    same ▸ List.mem_cons_self
  have named : (enumValueSheet value).heading.name = valueWord := by
    rw [enumValueSheet, Sheet.heading_ofContent]
    rfl
  rcases List.mem_append.1 mem with described | given
  · have other := isNamed_describing _ described
    simp only [isNamed, named] at other
    exact absurd other (by decide)
  · obtain ⟨param, -, eq⟩ := List.mem_map.1 given
    rw [← eq] at named
    exact absurd named (show paramWord ≠ valueWord by decide)

theorem typeContent_enumeration_inj {one other : List EnumValue} :
    typeContent (.enumeration one) = typeContent (.enumeration other) ↔ one = other := by
  rw [typeContent, typeContent, forall₂_of_map fun _ _ => enumValueSheet_inj, List.forall₂_eq_eq_eq]

theorem typeSheet_shown (type : AttributeType) : typeSheet type.shown = typeSheet type := by
  rcases type with datatype | _ | (_ | ⟨value, values⟩) | _ <;> rfl

theorem shown_cases (type : AttributeType) : (∃ datatype, type.shown = .primitive datatype) ∨
    (∃ value values, type.shown = .enumeration (value :: values)) ∨ type.shown = .unknown := by
  rcases type with datatype | _ | (_ | ⟨value, values⟩) | _
  · exact .inl ⟨_, rfl⟩
  · exact .inl ⟨_, rfl⟩
  · exact .inl ⟨_, rfl⟩
  · exact .inr (.inl ⟨_, _, rfl⟩)
  · exact .inr (.inr rfl)

theorem typeSheet_eq_iff {one other : AttributeType} :
    typeSheet one = typeSheet other ↔ one.shown = other.shown := by
  constructor
  · rw [← typeSheet_shown one, ← typeSheet_shown other, typeSheet, typeSheet, ofContent_inj,
      typeHeading_inj]
    rintro ⟨name, content⟩
    rcases shown_cases one with ⟨datatype, eq⟩ | ⟨value, values, eq⟩ | eq <;>
      rcases shown_cases other with ⟨datatype', eq'⟩ | ⟨value', values', eq'⟩ | eq' <;>
      rw [eq, eq'] at name content ⊢
    -- The names tell an unknown type from the others, the contents a datatype from values.
    case inl.inl =>
      obtain ⟨description, params⟩ := typeContent_primitive_inj.1 content
      cases datatype
      cases datatype'
      simp_all [AttributeType.name?]
    case inl.inr.inl => exact (typeContent_primitive_ne _ _ _ content).elim
    case inr.inl.inl => exact (typeContent_primitive_ne _ _ _ content.symm).elim
    case inr.inl.inr.inl => rw [typeContent_enumeration_inj.1 content]
    all_goals simp [AttributeType.name?] at name
  · intro same
    rw [← typeSheet_shown one, ← typeSheet_shown other, same]

theorem useText_inj {one other : Use} : one.text = other.text ↔ one = other := by
  cases one <;> cases other <;> decide

theorem attributeSheet_eq_iff (one other : AttributeRecord) :
    attributeSheet one = attributeSheet other ↔ one.Alike other := by
  simp only [attributeSheet, Sheet.branch.injEq, List.cons.injEq, textSheet_inj, typeSheet_eq_iff,
    useText_inj, true_and, and_true]
  constructor
  · rintro ⟨name, uri, description, type, use⟩
    exact ⟨name, uri, description, use, type⟩
  · rintro ⟨name, uri, description, use, type⟩
    exact ⟨name, uri, description, type, use⟩

theorem childSheet_inj {one other : ChildRef} :
    childSheet one = childSheet other ↔ one.id = other.id := by
  rw [childSheet, childSheet, Sheet.leaf.injEq, marked_inj, and_iff_left rfl]
  exact Text.repr_inj

theorem elementHeading_inj {one other : ElementRecord} :
    elementHeading one = elementHeading other ↔ one.name = other.name ∧ one.id = other.id := by
  simp only [elementHeading, Heading.mk.injEq, List.cons.injEq, Prod.mk.injEq, true_and, and_true]
  exact and_congr_right fun _ => Text.repr_inj

theorem isNamed_children {children : List ChildRef} :
    ∀ sheet ∈ children.map childSheet, isNamed childWord sheet = true := by
  simp only [List.forall_mem_map]
  intro child _
  rfl

theorem isNamed_attributes {attributes : List AttributeRecord} :
    ∀ sheet ∈ attributes.map attributeSheet, isNamed childWord sheet = false := by
  simp only [List.forall_mem_map]
  intro record _
  rfl

theorem elementSheet_eq_iff (one other : ElementRecord) :
    elementSheet one = elementSheet other ↔ one.Alike other := by
  have children : one.children.map childSheet = other.children.map childSheet ↔
      one.children.map ChildRef.id = other.children.map ChildRef.id := by
    rw [forall₂_of_map fun _ _ => childSheet_inj, forall₂_of_map fun _ _ => Iff.rfl]
  simp only [elementSheet, Sheet.branch.injEq, List.cons.injEq, textSheet_inj, elementHeading_inj,
    append_inj_of_split isNamed_children isNamed_children isNamed_attributes isNamed_attributes,
    children, forall₂_of_map attributeSheet_eq_iff]
  constructor
  · rintro ⟨⟨name, id⟩, uri, description, children, attributes⟩
    exact ⟨id, name, uri, description, children, attributes⟩
  · rintro ⟨id, name, uri, description, children, attributes⟩
    exact ⟨⟨name, id⟩, uri, description, children, attributes⟩

theorem sheet_eq_iff {one other : Documentation} : sheet one = sheet other ↔ one.Alike other := by
  rw [sheet, sheet, ofContent_inj, forall₂_of_map elementSheet_eq_iff]
  exact and_iff_right rfl

/-- Two reports without indentation are the same text exactly if the documentations agree on all that
is shown. So no string in one can look like markup of the report. -/
theorem xml_eq_iff (declaration : Bool) (one other : Documentation) :
    xml none declaration one = xml none declaration other ↔ one.Alike other := by
  rw [← sheet_eq_iff]
  constructor
  · intro same
    obtain ⟨gap, text, isGap, writes, whole⟩ := exists_writes_xml none declaration one
    obtain ⟨gap', text', isGap', writes', whole'⟩ := exists_writes_xml none declaration other
    rw [same, whole'] at whole
    have texts : text = text' := by
      cases declaration with
      | false => simpa using whole.symm
      | true =>
        simp only [if_true, List.append_assoc] at whole
        have begins := writes.beginsTag []
        have begins' := writes'.beginsTag []
        rw [List.append_nil] at begins begins'
        exact (gap_unique isGap' isGap begins' begins (List.append_cancel_left whole)).2.symm
    exact Sheet.Writes.unique writes (texts ▸ writes')
  · intro same
    rw [xml, xml, ← markup_sheet, ← markup_sheet, same]

end Report

end RelaxDoc
