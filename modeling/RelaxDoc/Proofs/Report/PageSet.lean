import RelaxDoc.Proofs.File.Routes
import RelaxDoc.Proofs.Grammar.Kinship
import RelaxDoc.Proofs.Record.Numbering
import RelaxDoc.Report.Html

/-! The files of a page set and their names: the index page, and for every element a page and a
diagram that are called by its id. -/
namespace RelaxDoc.Report

open RelaxDoc.Path (IsName)

/-- The name of the page of an element. -/
def pageName (id : Nat) : String := toString id ++ ".html"

/-- The name of the diagram of an element. -/
def diagramName (id : Nat) : String := toString id ++ ".dot"

/-- The path of the page of an element. -/
def pagePath (directory : String) (id : Nat) : String :=
  Path.join (Path.join directory "elements") (pageName id)

/-- The path of the diagram of an element. -/
def diagramPath (directory : String) (id : Nat) : String :=
  Path.join (Path.join directory "elements") (diagramName id)

section Names

/-- A number with an ending behind it is a name. -/
theorem isName_numbered {ending : String} (long : 1 < ending.length) (clean : '/' ∉ ending.toList)
    (id : Nat) : IsName (toString id ++ ending) := by
  have digit := List.length_pos_of_ne_nil (Nat.toDigits_ne_nil (n := id) (b := 10))
  have length : 2 < (toString id ++ ending).length := by
    rw [String.length_append, ← String.length_toList, Text.toList_toString]
    omega
  refine ⟨?_, ?_, ?_, ?_⟩
  · intro empty
    rw [empty] at length
    exact absurd length (by decide)
  · rw [String.toList_append, List.mem_append, not_or]
    exact ⟨Text.not_mem_toString rfl id, clean⟩
  · intro dot
    rw [dot] at length
    exact absurd length (by decide)
  · intro dots
    rw [dots] at length
    exact absurd length (by decide)

theorem isName_pageName (id : Nat) : IsName (pageName id) :=
  isName_numbered (by decide) (by decide) id

theorem isName_diagramName (id : Nat) : IsName (diagramName id) :=
  isName_numbered (by decide) (by decide) id

theorem isName_elements : IsName "elements" := ⟨by decide, by decide, by decide, by decide⟩

theorem append_left_injective {ending one other : String} (same : one ++ ending = other ++ ending) :
    one = other := by
  have chars := congrArg String.toList same
  rw [String.toList_append, String.toList_append] at chars
  exact String.toList_inj.1 (List.append_cancel_right chars)

theorem pageName_injective {id other : Nat} (same : pageName id = pageName other) : id = other :=
  Text.toString_injective (append_left_injective same)

theorem diagramName_injective {id other : Nat} (same : diagramName id = diagramName other) :
    id = other := Text.toString_injective (append_left_injective same)

theorem pageName_ne_diagramName (id other : Nat) : pageName id ≠ diagramName other := by
  intro same
  have last := congrArg (fun name => name.toList.getLast?) same
  simp only [pageName, diagramName, String.toList_append] at last
  rw [List.getLast?_append_of_ne_nil _ (by decide), List.getLast?_append_of_ne_nil _ (by decide)]
    at last
  exact absurd last (by decide)

end Names

section Files

variable (g : Grammar) (detail : Detail) (directory indexName : String)

/-- The index page in its place. -/
def indexFile (documentation : Documentation) : OutputFile :=
  ⟨Path.join directory indexName, indexPage documentation⟩

/-- The page of an element in its place. -/
def pageFile (record : ElementRecord) : OutputFile :=
  ⟨pagePath directory record.id, elementPage indexName record⟩

/-- The diagram of an element in its place. -/
def diagramFile (record : ElementRecord) : OutputFile :=
  ⟨diagramPath directory record.id,
    Dot.text record.name (g.diagram detail ((g.elementIndex.nodeOf? record.id).getD Arena.root))⟩

/-- Every record has the id of a node. -/
theorem nodeOf?_of_mem {record : ElementRecord}
    (member : record ∈ (Documentation.ofGrammar g).elements) :
    ∃ node, g.elementIndex.nodeOf? record.id = some node := by
  obtain ⟨node, among, rfl⟩ := List.mem_map.1 member
  obtain ⟨id, found⟩ := List.mem_iff_getElem?.1 among
  exact ⟨node, (g.elementRecord_id found).symm ▸ found⟩

theorem pageSet_ofGrammar :
    pageSet g g.elementIndex detail directory indexName (.ofGrammar g) =
      indexFile directory indexName (.ofGrammar g) ::
        (Documentation.ofGrammar g).elements.flatMap fun record =>
          [pageFile directory indexName record, diagramFile g detail directory record] := by
  refine congrArg (_ :: ·) (List.flatMap_congr fun record member => ?_)
  obtain ⟨node, found⟩ := nodeOf?_of_mem g member
  rw [elementFiles, diagramFile, found]
  rfl

theorem mem_pageSet_iff {file : OutputFile} :
    file ∈ pageSet g g.elementIndex detail directory indexName (.ofGrammar g) ↔
      file = indexFile directory indexName (.ofGrammar g) ∨
        ∃ record ∈ (Documentation.ofGrammar g).elements,
          file = pageFile directory indexName record ∨ file = diagramFile g detail directory record := by
  rw [pageSet_ofGrammar, List.mem_cons, List.mem_flatMap]
  simp only [List.mem_cons, List.not_mem_nil, or_false]

theorem length_pageSet :
    (pageSet g g.elementIndex detail directory indexName (.ofGrammar g)).length =
      1 + 2 * (Documentation.ofGrammar g).size := by
  rw [pageSet_ofGrammar, List.length_cons, List.length_flatMap, Documentation.size]
  simp only [List.length_cons, List.length_nil, List.map_const', List.sum_replicate_nat]
  omega

end Files

theorem id_of_getElem? {g : Grammar} {id : Nat} {record : ElementRecord}
    (found : (Documentation.ofGrammar g).elements[id]? = some record) : record.id = id := by
  rw [Documentation.getElem?_ofGrammar] at found
  obtain ⟨node, there, rfl⟩ := Option.map_eq_some_iff.1 found
  exact g.elementRecord_id there

/-- The ids of the records are their positions. -/
theorem ids_ofGrammar (g : Grammar) : (Documentation.ofGrammar g).elements.map ElementRecord.id =
    List.range (Documentation.ofGrammar g).size := by
  apply List.ext_getElem
  · rw [List.length_map, List.length_range, Documentation.size]
  · intro id inside _
    rw [List.length_map] at inside
    rw [List.getElem_map, List.getElem_range]
    exact id_of_getElem? (List.getElem?_eq_getElem inside)

theorem nodup_ids_ofGrammar (g : Grammar) :
    ((Documentation.ofGrammar g).elements.map ElementRecord.id).Nodup := by
  rw [ids_ofGrammar]
  exact List.nodup_range

/-- An element in another one. -/
def bookDocument : Xml.Document := .ofContent
  [.pattern .start none [.pattern .element "book" [.pattern .element "title" [.pattern .text none []]]]]

/-- The grammar of `bookDocument`. -/
def book : Grammar := .ofKept bookDocument rfl

end RelaxDoc.Report
