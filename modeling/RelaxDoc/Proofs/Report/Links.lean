import RelaxDoc.Proofs.Report.Markup
import Mathlib.Data.List.Nodup

/-! The links of a page set. A reader of its pages finds just those to the index page, to the pages of
children and to diagrams, and each of them leads to a file of the set. -/
namespace RelaxDoc.Report

open Html (Part)
open Xml (escapedChars)
open RelaxDoc.Path (IsName linked? route)

section Pages

/-- The links of the index page. -/
def indexLinks (documentation : Documentation) : List String :=
  documentation.elements.map fun record => "elements/" ++ pageName record.id

theorem links_noteParts (uri : Option String) : (noteParts uri).flatMap Part.links = [] := by
  cases uri <;> simp [noteParts]

theorem links_indexPage (documentation : Documentation) :
    Html.links (indexPage documentation) = (indexLinks documentation).map escapedChars := by
  have entry (record : ElementRecord) : (entryParts record).flatMap Part.links =
      [escapedChars ("elements/" ++ pageName record.id)] := by
    simp [entryParts, links_noteParts]
  rw [(spells_indexPage documentation).links_eq]
  simp [indexParts, indexLinks, List.flatMap_assoc, entry, List.map_eq_flatMap]

theorem links_typeParts (type : AttributeType) : (typeParts type).flatMap Part.links = [] := by
  cases type with
  | enumeration values =>
    rw [typeParts, Html.Part.flatMap_intercalate rfl, List.flatMap_map]
    simp
  | primitive | text | unknown => rfl

theorem links_tableParts (attributes : List AttributeRecord) :
    (tableParts attributes).flatMap Part.links = [] := by
  have row (record : AttributeRecord) : (rowParts record).flatMap Part.links = [] := by
    simp [rowParts, links_typeParts]
  unfold tableParts
  split <;> simp [headParts, List.flatMap_assoc, row]

theorem links_listParts (children : List ChildRef) : (listParts children).flatMap Part.links =
    children.map fun child => escapedChars (pageName child.id) := by
  unfold listParts
  split <;> simp_all [childParts, List.flatMap_assoc, List.map_eq_flatMap]

theorem links_namespaceParts (uri : Option String) :
    (namespaceParts uri).flatMap Part.links = [] := by
  cases uri <;> simp [namespaceParts]

theorem links_descriptionParts (description : String) :
    (descriptionParts description).flatMap Part.links = [] := by
  unfold descriptionParts
  split <;> simp

/-- The links of the page of an element: to the index page, to the pages of its children and to its
diagram. -/
def elementLinks (indexName : String) (record : ElementRecord) : List String :=
  ["../" ++ indexName] ++ record.children.map (fun child => pageName child.id) ++
    [diagramName record.id]

theorem links_elementPage (indexName : String) (record : ElementRecord) :
    Html.links (elementPage indexName record) =
      (elementLinks indexName record).map escapedChars := by
  rw [(spells_elementPage indexName record).links_eq]
  simp [elementParts, elementLinks, links_namespaceParts, links_descriptionParts, links_listParts,
    links_tableParts]

/-- How pages begin. -/
def doctype : String := "<!DOCTYPE html>"

theorem doctype_prefix_page (title body : String) : doctype.toList <+: (page title body).toList := by
  have front : "<!DOCTYPE html>\n<html>\n<head>\n<meta charset=\"utf-8\">\n<title>" =
    doctype ++ "\n<html>\n<head>\n<meta charset=\"utf-8\">\n<title>" := rfl
  unfold page
  rw [front]
  simp only [String.append_assoc]
  rw [String.toList_append]
  exact List.prefix_append _ _

end Pages

/-- A file that begins as pages do. -/
def IsPage (file : OutputFile) : Prop := doctype.toList <+: file.content.toList

/-- Where the links of a file lead after their escaping is undone. There is nothing for a link that
is not relative. -/
def destinations (file : OutputFile) : List (Option Place) :=
  (Html.links file.content).map fun written => (Html.unescaped? written).bind (linked? file.path)

theorem destinations_eq_map {file : OutputFile} {texts : List String}
    (links : Html.links file.content = texts.map escapedChars) :
    destinations file = texts.map (linked? file.path) := by
  rw [destinations, links, List.map_map]
  refine List.map_congr_left fun text _ => ?_
  rw [Function.comp_apply, Html.unescaped?_escapedChars]
  rfl

section Destinations

variable {g : Grammar} {detail : Detail} {directory indexName : String}

theorem destinations_indexFile (named : IsName indexName) (documentation : Documentation) :
    destinations (indexFile directory indexName documentation) =
      documentation.elements.map fun record => some (route (pagePath directory record.id)) := by
  have links : Html.links (indexFile directory indexName documentation).content = _ :=
    links_indexPage documentation
  rw [destinations_eq_map links, indexLinks, List.map_map]
  refine List.map_congr_left fun record _ => ?_
  have slash : "elements/" = "elements" ++ "/" := rfl
  rw [Function.comp_apply, slash]
  exact Path.linked?_inner named isName_elements (isName_pageName record.id)

theorem destinations_pageFile (named : IsName indexName) (record : ElementRecord) :
    destinations (pageFile directory indexName record) =
      [some (route (Path.join directory indexName))] ++
        record.children.map (fun child => some (route (pagePath directory child.id))) ++
        [some (route (diagramPath directory record.id))] := by
  have page := isName_pageName record.id
  have links : Html.links (pageFile directory indexName record).content = _ :=
    links_elementPage indexName record
  rw [destinations_eq_map links, elementLinks, List.map_append, List.map_append, List.map_map]
  refine congrArg₂ (· ++ ·) (congrArg₂ (· ++ ·) ?_ ?_) ?_
  · exact congrArg (fun place => [place]) (Path.linked?_outer page isName_elements named)
  · exact List.map_congr_left fun child _ => Path.linked?_name page (isName_pageName child.id)
  · exact congrArg (fun place => [place]) (Path.linked?_name page (isName_diagramName record.id))

theorem isPage_indexFile (documentation : Documentation) :
    IsPage (indexFile directory indexName documentation) := doctype_prefix_page ..

theorem isPage_pageFile (record : ElementRecord) : IsPage (pageFile directory indexName record) :=
  doctype_prefix_page ..

/-- The text of a diagram begins with a letter. -/
theorem not_isPage_dot (path title : String) (diagram : Diagram) :
    ¬ IsPage ⟨path, Dot.text title diagram⟩ := by
  intro ⟨rest, same⟩
  have front : doctype.toList.head? = some '<' := by decide
  have letter : (Dot.text title diagram).toList.head? = some 'd' := by
    rw [Dot.text, String.toList_ofList]
    rfl
  have first := congrArg List.head? same
  rw [List.head?_append, front, Option.some_or, letter] at first
  exact absurd first (by decide)

theorem not_isPage_diagramFile (record : ElementRecord) :
    ¬ IsPage (diagramFile g detail directory record) := not_isPage_dot _ _ _

end Destinations

section Closure

variable (g : Grammar) (detail : Detail) (directory indexName : String)

/-- The files of a page set, with links in the pages that lead from one to another or to a diagram. -/
structure Linked (files : List OutputFile) : Prop where
  length_eq : files.length = 1 + 2 * (Documentation.ofGrammar g).size
  isPage_iff : ∀ file ∈ files, IsPage file ↔
    file = indexFile directory indexName (.ofGrammar g) ∨
      ∃ record ∈ (Documentation.ofGrammar g).elements, file = pageFile directory indexName record
  /-- Every link in a page leads to a file. -/
  closed : ∀ page ∈ files, IsPage page → ∀ destination ∈ destinations page,
    ∃ target ∈ files, destination = some (route target.path)
  /-- The links of the index page lead to the pages of the elements, in order. -/
  index : indexFile directory indexName (.ofGrammar g) ∈ files ∧
    destinations (indexFile directory indexName (.ofGrammar g)) =
      (Documentation.ofGrammar g).elements.map fun record =>
        some (route (pagePath directory record.id))
  /-- Those of the page of an element lead to the index page, to the pages of its children, and to
  its own diagram. -/
  element : ∀ record ∈ (Documentation.ofGrammar g).elements,
    pageFile directory indexName record ∈ files ∧ diagramFile g detail directory record ∈ files ∧
      destinations (pageFile directory indexName record) =
        [some (route (Path.join directory indexName))] ++
          record.children.map (fun child => some (route (pagePath directory child.id))) ++
          [some (route (diagramPath directory record.id))]
  child : ∀ record ∈ (Documentation.ofGrammar g).elements, ∀ child ∈ record.children,
    ∃ inner ∈ (Documentation.ofGrammar g).elements, inner.id = child.id ∧ inner.name = child.name
  /-- The index page has one link to the page of an element. -/
  once : ∀ record ∈ (Documentation.ofGrammar g).elements,
    (destinations (indexFile directory indexName (.ofGrammar g))).count
      (some (route (pagePath directory record.id))) = 1

variable {g detail directory indexName}

/-- A reference to a child is to a record of its id. -/
theorem exists_record_of_child {record : ElementRecord}
    (member : record ∈ (Documentation.ofGrammar g).elements) {child : ChildRef}
    (refers : child ∈ record.children) : ∃ inner ∈ (Documentation.ofGrammar g).elements,
      inner.id = child.id ∧ inner.name = child.name := by
  obtain ⟨_, inner, found, named⟩ := Documentation.child_of_mem member refers
  exact ⟨inner, List.mem_of_getElem? found, id_of_getElem? found, named⟩

theorem route_pagePath_injective {id other : Nat}
    (same : route (pagePath directory id) = route (pagePath directory other)) : id = other := by
  rw [pagePath, pagePath, Path.route_join_name (isName_pageName id),
    Path.route_join_name (isName_pageName other)] at same
  exact pageName_injective (List.singleton_inj.1 (List.append_cancel_left same))

theorem count_destinations_indexFile (named : IsName indexName) {record : ElementRecord}
    (member : record ∈ (Documentation.ofGrammar g).elements) :
    (destinations (indexFile directory indexName (.ofGrammar g))).count
      (some (route (pagePath directory record.id))) = 1 := by
  rw [destinations_indexFile named]
  apply List.count_eq_one_of_mem
  · -- The ids are all different, and so are the paths.
    have paths := (nodup_ids_ofGrammar g).map (f := fun id => some (route (pagePath directory id)))
      fun _ _ same => route_pagePath_injective (Option.some.inj same)
    rwa [List.map_map] at paths
  · exact List.mem_map.2 ⟨record, member, rfl⟩

/-- A page set is closed under its links. -/
theorem linked_pageSet (g : Grammar) (detail : Detail) (directory : String) {indexName : String}
    (named : IsName indexName) : Linked g detail directory indexName
      (pageSet g g.elementIndex detail directory indexName (.ofGrammar g)) := by
  have page {record : ElementRecord} (member : record ∈ (Documentation.ofGrammar g).elements) :
      pageFile directory indexName record ∈
        pageSet g g.elementIndex detail directory indexName (.ofGrammar g) :=
    (mem_pageSet_iff ..).2 (.inr ⟨record, member, .inl rfl⟩)
  have diagram {record : ElementRecord} (member : record ∈ (Documentation.ofGrammar g).elements) :
      diagramFile g detail directory record ∈
        pageSet g g.elementIndex detail directory indexName (.ofGrammar g) :=
    (mem_pageSet_iff ..).2 (.inr ⟨record, member, .inr rfl⟩)
  have index : indexFile directory indexName (.ofGrammar g) ∈
      pageSet g g.elementIndex detail directory indexName (.ofGrammar g) :=
    (mem_pageSet_iff ..).2 (.inl rfl)
  have isPage_iff {file : OutputFile}
      (member : file ∈ pageSet g g.elementIndex detail directory indexName (.ofGrammar g)) :
      IsPage file ↔ file = indexFile directory indexName (.ofGrammar g) ∨
        ∃ record ∈ (Documentation.ofGrammar g).elements,
          file = pageFile directory indexName record := by
    constructor
    · intro isPage
      rcases (mem_pageSet_iff ..).1 member with rfl | ⟨record, among, rfl | rfl⟩
      · exact .inl rfl
      · exact .inr ⟨record, among, rfl⟩
      · exact absurd isPage (not_isPage_diagramFile record)
    · rintro (rfl | ⟨record, _, rfl⟩)
      · exact isPage_indexFile _
      · exact isPage_pageFile record
  refine ⟨length_pageSet .., fun file member => isPage_iff member, ?_,
    ⟨index, destinations_indexFile named _⟩,
    fun record member => ⟨page member, diagram member, destinations_pageFile named record⟩,
    fun _ member _ refers => exists_record_of_child member refers,
    fun _ member => count_destinations_indexFile named member⟩
  intro file member isPage destination among
  rcases (isPage_iff member).1 isPage with rfl | ⟨record, documented, rfl⟩
  · rw [destinations_indexFile named, List.mem_map] at among
    obtain ⟨record, documented, rfl⟩ := among
    exact ⟨_, page documented, rfl⟩
  · simp only [destinations_pageFile named, List.mem_append, List.mem_singleton, List.mem_map]
      at among
    rcases among with (rfl | ⟨child, refers, rfl⟩) | rfl
    · exact ⟨_, index, rfl⟩
    · obtain ⟨inner, found, same, _⟩ := exists_record_of_child documented refers
      exact ⟨_, page found, by rw [← same]; rfl⟩
    · exact ⟨_, diagram documented, rfl⟩

end Closure

/-- Two elements, with an index page that has a name to be escaped. -/
theorem book_linked : IsName "a&b\".html" ∧
    Linked book .full "out" "a&b\".html"
      (pageSet book book.elementIndex .full "out" "a&b\".html" (.ofGrammar book)) ∧
    (Documentation.ofGrammar book).size = 2 := by
  have named : IsName "a&b\".html" := ⟨by decide, by decide, by decide, by decide⟩
  exact ⟨named, linked_pageSet book .full "out" named, by decide +kernel⟩

end RelaxDoc.Report
