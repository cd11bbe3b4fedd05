import RelaxDoc.Proofs.Report.Links

/-! Pages and the texts in them. The tags of the pages depend on the shape of a documentation alone,
whatever its texts are, and the texts are read from the pages as they are in the records. -/
namespace RelaxDoc

section Shape

/-- A type without its texts. -/
def AttributeType.shape : AttributeType → AttributeType
  | .primitive _ => .primitive ⟨"", "", []⟩
  | .text => .text
  | .enumeration values => .enumeration (values.map fun _ => ⟨"", ""⟩)
  | .unknown => .unknown

/-- The use of an attribute and its type without its texts; that it has a namespace or a description
is left out as well. -/
def AttributeRecord.shape (record : AttributeRecord) : AttributeRecord :=
  ⟨"", none, "", record.use, record.type.shape⟩

/-- A reference to a child without its name. -/
def ChildRef.shape (child : ChildRef) : ChildRef := ⟨child.id, ""⟩

/-- A record without its texts: its id, whether it has a namespace and a description, and what is
left of its children and attributes. -/
def ElementRecord.shape (record : ElementRecord) : ElementRecord where
  id := record.id
  name := ""
  uri := record.uri.map fun _ => ""
  description := if record.description = "" then "" else "described"
  children := record.children.map ChildRef.shape
  attributes := record.attributes.map AttributeRecord.shape

/-- A documentation without its texts. -/
def Documentation.shape (documentation : Documentation) : Documentation :=
  ⟨documentation.elements.map ElementRecord.shape⟩

end Shape

namespace Report

open Html (Part)
open Html.Part (enclosed)

section Tags

theorem tags_noteParts (uri : Option String) :
    (noteParts (uri.map fun _ => "")).flatMap Part.tags = (noteParts uri).flatMap Part.tags := by
  cases uri <;> simp [noteParts]

theorem tags_entryParts (record : ElementRecord) :
    (entryParts record.shape).flatMap Part.tags = (entryParts record).flatMap Part.tags := by
  simp [entryParts, ElementRecord.shape, tags_noteParts]

theorem tags_typeParts (type : AttributeType) :
    (typeParts type.shape).flatMap Part.tags = (typeParts type).flatMap Part.tags := by
  cases type with
  | enumeration values =>
    rw [AttributeType.shape, typeParts, typeParts, Html.Part.flatMap_intercalate rfl,
      Html.Part.flatMap_intercalate rfl, List.flatMap_map, List.flatMap_map, List.flatMap_map]
    simp
  | primitive | text | unknown => rfl

theorem tags_rowParts (record : AttributeRecord) :
    (rowParts record.shape).flatMap Part.tags = (rowParts record).flatMap Part.tags := by
  simp [rowParts, AttributeRecord.shape, tags_typeParts]

theorem tags_tableParts (attributes : List AttributeRecord) :
    (tableParts (attributes.map AttributeRecord.shape)).flatMap Part.tags =
      (tableParts attributes).flatMap Part.tags := by
  unfold tableParts
  by_cases none : attributes = []
  · simp [none]
  · simp [none, List.flatMap_assoc, List.flatMap_map, tags_rowParts]

theorem tags_listParts (children : List ChildRef) :
    (listParts (children.map ChildRef.shape)).flatMap Part.tags =
      (listParts children).flatMap Part.tags := by
  unfold listParts
  by_cases none : children = []
  · simp [none]
  · simp [none, List.flatMap_assoc, List.flatMap_map, childParts, ChildRef.shape]

theorem tags_namespaceParts (uri : Option String) :
    (namespaceParts (uri.map fun _ => "")).flatMap Part.tags =
      (namespaceParts uri).flatMap Part.tags := by
  cases uri <;> simp [namespaceParts]

theorem tags_descriptionParts (description : String) :
    (descriptionParts (if description = "" then "" else "described")).flatMap Part.tags =
      (descriptionParts description).flatMap Part.tags := by
  unfold descriptionParts
  by_cases none : description = "" <;> simp [none]

/-- The tags of the page of an element depend on the shape of its record. -/
theorem tags_elementPage (indexName : String) (record : ElementRecord) :
    Html.tags (elementPage indexName record) =
      (elementParts indexName record.shape).flatMap Part.tags := by
  rw [(spells_elementPage indexName record).tags_eq]
  simp [elementParts, pageParts, ElementRecord.shape, tags_namespaceParts, tags_descriptionParts,
    tags_listParts, tags_tableParts]

/-- The tags of the index page depend on the shape of the documentation. -/
theorem tags_indexPage (documentation : Documentation) :
    Html.tags (indexPage documentation) = (indexParts documentation.shape).flatMap Part.tags := by
  rw [(spells_indexPage documentation).tags_eq]
  simp [indexParts, pageParts, Documentation.shape, List.flatMap_assoc, List.flatMap_map,
    tags_entryParts]

end Tags

section Strings

/-- The texts of a type that are on a page. -/
def typeStrings : AttributeType → List String
  | .primitive datatype => [datatype.name]
  | .enumeration values => values.map EnumValue.value
  | .text => []
  | .unknown => []

/-- The texts of a record that are on the index page. -/
def entryStrings (record : ElementRecord) : List String := record.name :: record.uri.toList

/-- The texts of an attribute that are on the page of its element. -/
def attributeStrings (record : AttributeRecord) : List String :=
  [record.name, record.uri.getD ""] ++ typeStrings record.type ++ [record.description]

/-- The texts of a record that are on the page of its element, in order; the name is the title and
the heading. -/
def elementStrings (record : ElementRecord) : List String :=
  [record.name, record.name] ++ record.uri.toList ++
    (if record.description = "" then [] else [record.description]) ++
    record.children.map ChildRef.name ++ record.attributes.flatMap attributeStrings

theorem strings_indexParts (documentation : Documentation) :
    (indexParts documentation).flatMap Part.strings =
      documentation.elements.flatMap entryStrings := by
  have note (uri : Option String) : (noteParts uri).flatMap Part.strings = uri.toList := by
    cases uri <;> simp [noteParts]
  have entry (record : ElementRecord) :
      (entryParts record).flatMap Part.strings = entryStrings record := by
    simp [entryParts, entryStrings, note]
  simp [indexParts, List.flatMap_assoc, entry]

theorem strings_typeParts (type : AttributeType) :
    (typeParts type).flatMap Part.strings = typeStrings type := by
  cases type with
  | enumeration values =>
    rw [typeParts, Html.Part.flatMap_intercalate rfl, List.flatMap_map]
    simp [typeStrings, List.map_eq_flatMap]
  | primitive | text | unknown => rfl

theorem strings_tableParts (attributes : List AttributeRecord) :
    (tableParts attributes).flatMap Part.strings = attributes.flatMap attributeStrings := by
  have row (record : AttributeRecord) :
      (rowParts record).flatMap Part.strings = attributeStrings record := by
    simp [rowParts, attributeStrings, strings_typeParts]
  unfold tableParts
  split <;> simp_all [headParts, List.flatMap_assoc]

theorem strings_listParts (children : List ChildRef) :
    (listParts children).flatMap Part.strings = children.map ChildRef.name := by
  unfold listParts
  split <;> simp_all [childParts, List.flatMap_assoc, List.map_eq_flatMap]

theorem strings_elementParts (indexName : String) (record : ElementRecord) :
    (elementParts indexName record).flatMap Part.strings = elementStrings record := by
  have namespaced (uri : Option String) :
      (namespaceParts uri).flatMap Part.strings = uri.toList := by
    cases uri <;> simp [namespaceParts]
  have described (description : String) : (descriptionParts description).flatMap Part.strings =
      if description = "" then [] else [description] := by
    unfold descriptionParts
    split <;> simp
  simp [elementParts, elementStrings, namespaced, described, strings_listParts, strings_tableParts]

end Strings

section Pages

instance : DecidablePred IsPage := fun file =>
  inferInstanceAs (Decidable (doctype.toList <+: file.content.toList))

/-- The pages of a page set, without the diagrams beside them. -/
def pages (files : List OutputFile) : List OutputFile := files.filter fun file => IsPage file

variable (g : Grammar) (index : ElementIndex) (detail : Detail) (directory indexName : String)

theorem pages_elementFiles (record : ElementRecord) :
    pages (elementFiles g index detail directory indexName record) =
      [pageFile directory indexName record] := by
  have first : decide (IsPage (pageFile directory indexName record)) = true :=
    decide_eq_true (isPage_pageFile record)
  have filtered (beside : List OutputFile) :
      pages (pageFile directory indexName record :: beside) =
        pageFile directory indexName record :: pages beside := by
    rw [pages, List.filter_cons, if_pos first]
    rfl
  unfold elementFiles
  cases index.nodeOf? record.id with
  | none => exact filtered []
  | some node =>
    refine (filtered _).trans (congrArg (_ :: ·) ?_)
    rw [pages, List.filter_cons, if_neg (mt of_decide_eq_true (not_isPage_dot _ _ _)),
      List.filter_nil]

theorem pages_pageSet (documentation : Documentation) :
    pages (pageSet g index detail directory indexName documentation) =
      indexFile directory indexName documentation ::
        documentation.elements.map (pageFile directory indexName) := by
  have first : decide (IsPage (indexFile directory indexName documentation)) = true :=
    decide_eq_true (isPage_indexFile documentation)
  have each := pages_elementFiles g index detail directory indexName
  unfold pages at each ⊢
  rw [pageSet, ← indexFile, List.filter_cons, if_pos first, List.filter_flatMap,
    List.map_eq_flatMap]
  simp only [each]

section Readings

variable (record : ElementRecord) (documentation : Documentation)

theorem tags_indexFile : Html.tags (indexFile directory indexName documentation).content =
    (indexParts documentation.shape).flatMap Part.tags := tags_indexPage documentation

theorem tags_pageFile : Html.tags (pageFile directory indexName record).content =
    (elementParts indexName record.shape).flatMap Part.tags := tags_elementPage indexName record

theorem texts_indexFile : Html.texts (indexFile directory indexName documentation).content =
    (Part.texts (indexParts documentation)).map some := (spells_indexPage documentation).texts_eq

theorem texts_pageFile : Html.texts (pageFile directory indexName record).content =
    (Part.texts (elementParts indexName record)).map some :=
  (spells_elementPage indexName record).texts_eq

theorem path_pageFile :
    (pageFile directory indexName record).path = pagePath directory record.shape.id := rfl

end Readings

/-- The paths and tags of the pages are those of the shape of the documentation. -/
theorem tags_pages (documentation : Documentation) :
    (pages (pageSet g index detail directory indexName documentation)).map
        (fun page => (page.path, Html.tags page.content)) =
      (Path.join directory indexName, (indexParts documentation.shape).flatMap Part.tags) ::
        documentation.shape.elements.map fun record =>
          (pagePath directory record.id, (elementParts indexName record).flatMap Part.tags) := by
  simp only [pages_pageSet, List.map_cons, List.map_map, Function.comp_def, tags_indexFile,
    tags_pageFile, path_pageFile]
  rw [Documentation.shape, List.map_map]
  rfl

/-- The pages of documentations of one shape have the same tags with the same attributes, whatever
the texts in the records are. Around the tags of each page a reader that undoes the escaping finds
the texts of the parts of the page, and what is filled in there are the texts of the records. -/
theorem markup_of_shape {documentation other : Documentation}
    (same : documentation.shape = other.shape) (g again : Grammar) (index more : ElementIndex)
    (detail level : Detail) (directory indexName : String) :
    (pages (pageSet g index detail directory indexName documentation)).map
        (fun page => (page.path, Html.tags page.content)) =
      (pages (pageSet again more level directory indexName other)).map
        (fun page => (page.path, Html.tags page.content)) ∧
    (pages (pageSet g index detail directory indexName documentation)).map
        (fun page => Html.texts page.content) =
      (indexParts documentation :: documentation.elements.map (elementParts indexName)).map
        (fun parts => (Part.texts parts).map some) ∧
    (indexParts documentation :: documentation.elements.map (elementParts indexName)).map
        (List.flatMap Part.strings) =
      documentation.elements.flatMap entryStrings :: documentation.elements.map elementStrings := by
  refine ⟨?_, ?_, ?_⟩
  · rw [tags_pages, tags_pages, same]
  · simp only [pages_pageSet, List.map_cons, List.map_map, Function.comp_def, texts_indexFile,
      texts_pageFile]
  · simp only [List.map_cons, List.map_map, Function.comp_def, strings_indexParts,
      strings_elementParts]

end Pages

/-- A record whose texts are plain. -/
def plainRecords : Documentation :=
  ⟨[⟨0, "book", some "urn:books", "A book.", [⟨0, "book"⟩],
    [⟨"kind", none, "", .optional, .enumeration [⟨"a", ""⟩, ⟨"b", ""⟩]⟩,
     ⟨"width", none, "", .required, .primitive ⟨"int", "", []⟩⟩]⟩]⟩

/-- A record of the same shape with texts that look like markup. -/
def adverseRecords : Documentation :=
  ⟨[⟨0, "<script>", some "\"><b>", "</p>&lt;", [⟨0, "</a>"⟩],
    [⟨"'&", some "<", ">", .optional, .enumeration [⟨"</code>", "?"⟩, ⟨"&amp;", ""⟩]⟩,
     ⟨"", none, "", .required, .primitive ⟨"<!--", "", []⟩⟩]⟩]⟩

theorem adverse_markup : plainRecords.shape = adverseRecords.shape ∧
    (pages (pageSet book book.elementIndex .full "out" "a&b.html" plainRecords)).map
        (fun page => (page.path, Html.tags page.content)) =
      (pages (pageSet book book.elementIndex .simple "out" "a&b.html" adverseRecords)).map
        (fun page => (page.path, Html.tags page.content)) := by
  have same : plainRecords.shape = adverseRecords.shape := by decide
  exact ⟨same, (markup_of_shape same book book book.elementIndex book.elementIndex .full .simple
    "out" "a&b.html").1⟩

end Report

end RelaxDoc
