import RelaxDoc.Proofs.Xml.Sheet
import RelaxDoc.Report.Xml

/-! The XML report as a sheet. Texts that may be empty are leaves; an element, an attribute and a type
hold the elements for what they consist of. -/
namespace RelaxDoc.Report

open Xml

/-- The names of the elements and attributes of the report. -/
def documentationWord : Word := ⟨"documentation", rfl⟩

@[inherit_doc documentationWord]
def elementWord : Word := ⟨"element", rfl⟩

@[inherit_doc documentationWord]
def namespaceWord : Word := ⟨"namespace", rfl⟩

@[inherit_doc documentationWord]
def descriptionWord : Word := ⟨"description", rfl⟩

@[inherit_doc documentationWord]
def childWord : Word := ⟨"child", rfl⟩

@[inherit_doc documentationWord]
def attributeWord : Word := ⟨"attribute", rfl⟩

@[inherit_doc documentationWord]
def typeWord : Word := ⟨"type", rfl⟩

@[inherit_doc documentationWord]
def paramWord : Word := ⟨"param", rfl⟩

@[inherit_doc documentationWord]
def valueWord : Word := ⟨"value", rfl⟩

@[inherit_doc documentationWord]
def useWord : Word := ⟨"use", rfl⟩

@[inherit_doc documentationWord]
def nameWord : Word := ⟨"name", rfl⟩

@[inherit_doc documentationWord]
def idWord : Word := ⟨"id", rfl⟩

/-- Tags without attributes. -/
def bare (name : Word) : Heading := ⟨name, [], List.nodup_nil⟩

/-- Tags with one attribute. -/
def marked (name field : Word) (value : String) : Heading :=
  ⟨name, [(field, value)], List.pairwise_singleton _ _⟩

/-- The tags of an element. -/
def elementHeading (record : ElementRecord) : Heading where
  name := elementWord
  fields := [(nameWord, record.name), (idWord, toString record.id)]
  distinct := show [nameWord, idWord].Nodup by decide

/-- An element that holds a text, empty if there is none. -/
def textSheet (name : Word) (text : String) : Sheet :=
  .leaf (bare name) (if text = "" then none else some text)

/-- The element for a description, if there is one. -/
def describing (text : String) : List Sheet :=
  if text = "" then [] else [textSheet descriptionWord text]

/-- The element for a parameter. -/
def paramSheet (param : Param) : Sheet :=
  .leaf (marked paramWord nameWord param.name) (some param.value)

/-- The element for a value. -/
def enumValueSheet (value : EnumValue) : Sheet :=
  .ofContent (marked valueWord nameWord value.value) (describing value.description)

/-- The tags of a type. -/
def typeHeading : Option String → Heading
  | none => bare typeWord
  | some name => marked typeWord nameWord name

/-- What the element for a type holds. -/
def typeContent : AttributeType → List Sheet
  | .primitive datatype => describing datatype.description ++ datatype.params.map paramSheet
  | .enumeration values => values.map enumValueSheet
  | .text | .unknown => []

/-- The element for a type. -/
def typeSheet (type : AttributeType) : Sheet :=
  .ofContent (typeHeading type.name?) (typeContent type)

/-- The element for an attribute. -/
def attributeSheet (record : AttributeRecord) : Sheet :=
  .branch (bare attributeWord) (textSheet nameWord record.name)
    [textSheet namespaceWord (record.uri.getD ""), textSheet descriptionWord record.description,
      typeSheet record.type, textSheet useWord record.use.text]

/-- The element for a child. -/
def childSheet (child : ChildRef) : Sheet :=
  .leaf (marked childWord idWord (toString child.id)) none

/-- The element for an element. -/
def elementSheet (record : ElementRecord) : Sheet :=
  .branch (elementHeading record) (textSheet namespaceWord (record.uri.getD ""))
    (textSheet descriptionWord record.description ::
      (record.children.map childSheet ++ record.attributes.map attributeSheet))

/-- The report. -/
def sheet (documentation : Documentation) : Sheet :=
  .ofContent (bare documentationWord) (documentation.elements.map elementSheet)

@[simp]
theorem opening_marked (name field : Word) (value : String) :
    (marked name field value).opening = .startTag name.text [⟨field.text, value⟩] := rfl

@[simp]
theorem single_marked (name field : Word) (value : String) :
    (marked name field value).single = .emptyTag name.text [⟨field.text, value⟩] := rfl

@[simp]
theorem closing_marked (name field : Word) (value : String) :
    (marked name field value).closing = .endTag name.text := rfl

theorem markup_textSheet (name : Word) (text : String) :
    (textSheet name text).markup = textMarkup name.text text := by
  unfold textSheet textMarkup
  split <;> rfl

theorem flatMap_markup_describing (text : String) :
    (describing text).flatMap Sheet.markup =
      if text = "" then [] else textMarkup "description" text := by
  unfold describing
  split
  · rfl
  · rw [List.flatMap_singleton, markup_textSheet]
    rfl

theorem describing_eq_nil {text : String} : describing text = [] ↔ text = "" := by
  unfold describing
  split <;> simp_all

theorem markup_enumValueSheet (value : EnumValue) :
    (enumValueSheet value).markup = enumValueMarkup value := by
  simp only [enumValueSheet, Sheet.markup_ofContent, flatMap_markup_describing, describing_eq_nil,
    enumValueMarkup, opening_marked, closing_marked, single_marked, valueWord, nameWord]
  split <;> rfl

theorem markup_typeSheet (type : AttributeType) : (typeSheet type).markup = typeMarkup type := by
  rw [typeSheet, Sheet.markup_ofContent]
  cases type with
  | primitive datatype =>
    have params : (datatype.params.map paramSheet).flatMap Sheet.markup =
        datatype.params.flatMap paramMarkup := List.flatMap_map ..
    simp only [typeContent, List.append_eq_nil_iff, describing_eq_nil, List.map_eq_nil_iff,
      List.flatMap_append, flatMap_markup_describing, params, typeMarkup]
    rfl
  | text => rfl
  | enumeration values =>
    have inside : (values.map enumValueSheet).flatMap Sheet.markup =
        values.flatMap enumValueMarkup := by
      rw [List.flatMap_map, funext markup_enumValueSheet]
    simp only [typeContent, List.map_eq_nil_iff, inside, typeMarkup]
    rfl
  | unknown => rfl

theorem markup_attributeSheet (record : AttributeRecord) :
    (attributeSheet record).markup = attributeMarkup record := by
  rw [attributeSheet, Sheet.markup, markupOfAll_eq_flatMap]
  simp only [List.flatMap_cons, List.flatMap_nil, markup_textSheet, markup_typeSheet,
    attributeMarkup, List.append_assoc, List.cons_append, List.nil_append]
  rfl

theorem markup_elementSheet (record : ElementRecord) :
    (elementSheet record).markup = elementMarkup record := by
  have children : (record.children.map childSheet).flatMap Sheet.markup =
      record.children.map childMarkup := by
    rw [List.flatMap_map, List.map_eq_flatMap]
    rfl
  have attributes : (record.attributes.map attributeSheet).flatMap Sheet.markup =
      record.attributes.flatMap attributeMarkup := by
    rw [List.flatMap_map, funext markup_attributeSheet]
  rw [elementSheet, Sheet.markup, markupOfAll_eq_flatMap]
  simp only [List.flatMap_cons, List.flatMap_append, markup_textSheet, children, attributes,
    elementMarkup, List.append_assoc, List.cons_append]
  rfl

/-- What the report writes is its sheet. -/
theorem markup_sheet (documentation : Documentation) :
    (sheet documentation).markup = documentationMarkup documentation := by
  have inside : (documentation.elements.map elementSheet).flatMap Sheet.markup =
      documentation.elements.flatMap elementMarkup := by
    rw [List.flatMap_map, funext markup_elementSheet]
  simp only [sheet, Sheet.markup_ofContent, inside, List.map_eq_nil_iff]
  rfl

end RelaxDoc.Report
