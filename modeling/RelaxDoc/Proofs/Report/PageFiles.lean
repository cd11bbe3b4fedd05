import RelaxDoc.Proofs.File.Fresh
import RelaxDoc.Proofs.Report.PageSet
import RelaxDoc.Report.Render
import Mathlib.Data.List.Nodup

/-! Where the files of a page set go. Their places are all different, and an empty directory takes them
unless the index page has the name of the directory of the others. -/
namespace RelaxDoc.Report

open RelaxDoc.Path (IsName IsPlain)

/-- No place is around another. -/
def PrefixFree (places : List Place) : Prop :=
  ∀ one ∈ places, ∀ other ∈ places, one <+: other → one = other

theorem prefixFree_map_append {here : Place} {places : List Place} :
    PrefixFree (places.map (here ++ ·)) ↔ PrefixFree places := by
  simp only [PrefixFree, List.forall_mem_map, List.prefix_append_right_inj, List.append_cancel_left_eq]

theorem apart_iff_prefixFree {tree : FileTree} {files : List OutputFile} :
    tree.Apart files ↔ PrefixFree (files.map fun file => tree.place file.path) := by
  simp only [PrefixFree, List.forall_mem_map]
  rfl

/-- The ways from the directory of a page set to its files. -/
def pageWays (indexName : String) (documentation : Documentation) : List Place :=
  [indexName] :: documentation.elements.flatMap fun record =>
    [["elements", pageName record.id], ["elements", diagramName record.id]]

section Ways

variable (g : Grammar) (detail : Detail) (directory : String) {indexName : String}

theorem places_pageSet (tree : FileTree) (named : IsName indexName) :
    (pageSet g g.elementIndex detail directory indexName (.ofGrammar g)).map
        (fun file => tree.place file.path) =
      (pageWays indexName (.ofGrammar g)).map (tree.place directory ++ ·) := by
  rw [pageSet_ofGrammar, pageWays, List.map_cons, List.map_cons, List.map_flatMap, List.map_flatMap]
  refine congrArg₂ (· :: ·) (Path.place_join_name _ _ named) (List.flatMap_congr fun record _ => ?_)
  have inner {name : String} (also : IsName name) :
      tree.place (Path.join (Path.join directory "elements") name) =
        tree.place directory ++ ["elements", name] := by
    rw [Path.place_join_name _ _ also, Path.place_join_name _ _ isName_elements, List.append_assoc]
    rfl
  simp only [List.map_cons, List.map_nil]
  exact congrArg₂ (fun one other => [one, other]) (inner (isName_pageName record.id))
    (inner (isName_diagramName record.id))

theorem nodup_pageWays (indexName : String) : (pageWays indexName (.ofGrammar g)).Nodup := by
  refine List.nodup_cons.2 ⟨fun member => ?_, List.nodup_flatMap.2 ⟨fun record _ => ?_, ?_⟩⟩
  · obtain ⟨record, _, among⟩ := List.mem_flatMap.1 member
    simp at among
  · simp [pageName_ne_diagramName]
  · -- Records have different ids, and the names of their files begin with those.
    refine (List.pairwise_map.1 (nodup_ids_ofGrammar g)).imp fun {one other} differ => ?_
    intro way here there
    simp only [List.mem_cons, List.not_mem_nil, or_false] at here there
    rcases here with rfl | rfl <;> rcases there with same | same <;>
      have same := (List.cons.inj (List.cons.inj same).2).1
    · exact differ (pageName_injective same)
    · exact pageName_ne_diagramName _ _ same
    · exact pageName_ne_diagramName _ _ same.symm
    · exact differ (diagramName_injective same)

/-- The index page is in the way of the others if it has the name of their directory. -/
theorem prefixFree_pageWays_iff : PrefixFree (pageWays indexName (.ofGrammar g)) ↔
    ¬ (indexName = "elements" ∧ (Documentation.ofGrammar g).elements ≠ []) := by
  have mem_iff {way : Place} : way ∈ pageWays indexName (.ofGrammar g) ↔ way = [indexName] ∨
      ∃ record ∈ (Documentation.ofGrammar g).elements,
        way = ["elements", pageName record.id] ∨ way = ["elements", diagramName record.id] := by
    simp [pageWays]
  constructor
  · rintro free ⟨rfl, some⟩
    obtain ⟨record, rest, split⟩ := List.exists_cons_of_ne_nil some
    have member : record ∈ (Documentation.ofGrammar g).elements := split ▸ List.mem_cons_self ..
    have same := free ["elements"] (mem_iff.2 (.inl rfl)) ["elements", pageName record.id]
      (mem_iff.2 (.inr ⟨record, member, .inl rfl⟩)) ⟨[pageName record.id], rfl⟩
    simp at same
  · intro clear one here other there leading
    rcases mem_iff.1 here with rfl | ⟨record, member, here⟩
    · rcases mem_iff.1 there with rfl | ⟨record, member, there⟩
      · rfl
      · refine absurd ⟨?_, List.ne_nil_of_mem member⟩ clear
        rcases there with rfl | rfl <;> exact (List.cons_prefix_cons.1 leading).1
    · -- Two ways of the same length are around one another only if they are the same.
      have long : one.length = 2 := by rcases here with rfl | rfl <;> rfl
      rcases mem_iff.1 there with rfl | ⟨_, _, there⟩
      · exact absurd leading.length_le (by simp [long])
      · have also : other.length = 2 := by rcases there with rfl | rfl <;> rfl
        exact leading.eq_of_length (long.trans also.symm)

end Ways

section Locations

variable {output : Option String}

/-- The index page of a page set has a name, which is none if the output path has none. -/
theorem isName_htmlLocation (output : Option String) : IsName (htmlLocation output).2 := by
  have fallback : IsName "index.html" := ⟨by decide, by decide, by decide, by decide⟩
  cases output with
  | none => exact fallback
  | some path =>
    rw [htmlLocation]
    cases found : Path.fileName? path with
    | none => exact fallback
    | some name => exact Path.isName_of_fileName? found

/-- The directory around an output path. -/
def surroundings (output : Option String) : String := (output.bind Path.parent?).getD ""

theorem isName_html : IsName "html" := ⟨by decide, by decide, by decide, by decide⟩

theorem fst_htmlLocation (output : Option String) :
    (htmlLocation output).1 = Path.join (surroundings output) "html" := by
  cases output <;> rfl

theorem isPlain_surroundings (plain : ∀ path, output = some path → IsPlain path) :
    IsPlain (surroundings output) := by
  cases output with
  | none => exact (by decide : IsPlain "")
  | some path =>
    rw [surroundings, Option.bind_some]
    cases found : Path.parent? path with
    | none => exact (by decide : IsPlain "")
    | some outer => exact (Path.isAround_of_parent? found).isPlain (plain path rfl)

theorem isAbsolute_surroundings (relative : ∀ path, output = some path → Path.isAbsolute path = false) :
    Path.isAbsolute (surroundings output) = false := by
  cases output with
  | none => rfl
  | some path =>
    rw [surroundings, Option.bind_some]
    cases found : Path.parent? path with
    | none => rfl
    | some outer => exact (Path.isAround_of_parent? found).absolute.trans (relative path rfl)

theorem isPlain_htmlLocation (plain : ∀ path, output = some path → IsPlain path) :
    IsPlain (htmlLocation output).1 := by
  rw [fst_htmlLocation]
  exact Path.isPlain_join (isPlain_surroundings plain) isName_html

/-- An output path that asks for an index page in the place of the directory for the elements, of which
there are some. -/
def Collides (g : Grammar) (output : Option String) : Prop :=
  output.bind Path.fileName? = some "elements" ∧ (Documentation.ofGrammar g).elements ≠ []

theorem htmlLocation_eq_elements_iff :
    (htmlLocation output).2 = "elements" ↔ output.bind Path.fileName? = some "elements" := by
  cases output with
  | none => simp [htmlLocation]
  | some path => cases found : Path.fileName? path <;> simp [htmlLocation, found]

/-- The pages for an output path and the diagrams among them. -/
def htmlFiles (g : Grammar) (detail : Detail) (output : Option String) : List OutputFile :=
  pageSet g g.elementIndex detail (htmlLocation output).1 (htmlLocation output).2 (.ofGrammar g)

variable {g : Grammar} {detail : Detail}

theorem nodup_places_htmlFiles (tree : FileTree) :
    ((htmlFiles g detail output).map fun file => tree.place file.path).Nodup := by
  rw [htmlFiles, places_pageSet g detail _ tree (isName_htmlLocation output)]
  exact (nodup_pageWays g _).map fun _ _ => List.append_cancel_left

theorem prefixFree_places_htmlFiles_iff (tree : FileTree) :
    PrefixFree ((htmlFiles g detail output).map fun file => tree.place file.path) ↔
      ¬ Collides g output := by
  rw [htmlFiles, places_pageSet g detail _ tree (isName_htmlLocation output), prefixFree_map_append,
    prefixFree_pageWays_iff, htmlLocation_eq_elements_iff]
  rfl

theorem endsIn_htmlFiles {file : OutputFile} (member : file ∈ htmlFiles g detail output) :
    ∃ name, Path.EndsIn file.path name := by
  rcases (mem_pageSet_iff ..).1 member with rfl | ⟨record, _, rfl | rfl⟩
  · exact ⟨_, Path.endsIn_join _ (isName_htmlLocation output)⟩
  · exact ⟨_, Path.endsIn_join _ (isName_pageName record.id)⟩
  · exact ⟨_, Path.endsIn_join _ (isName_diagramName record.id)⟩

theorem isPlain_htmlFiles (plain : ∀ path, output = some path → IsPlain path) {file : OutputFile}
    (member : file ∈ htmlFiles g detail output) : IsPlain file.path := by
  have directory := isPlain_htmlLocation plain
  have inner := Path.isPlain_join directory isName_elements
  rcases (mem_pageSet_iff ..).1 member with rfl | ⟨record, _, rfl | rfl⟩
  · exact Path.isPlain_join directory (isName_htmlLocation output)
  · exact Path.isPlain_join inner (isName_pageName record.id)
  · exact Path.isPlain_join inner (isName_diagramName record.id)

/-- The files of a page set go to a directory of their own. -/
theorem exists_place_eq (tree : FileTree) {file : OutputFile}
    (member : file ∈ htmlFiles g detail output) :
    ∃ way, tree.place file.path = tree.place (surroundings output) ++ "html" :: way := by
  have listed : tree.place file.path ∈ (htmlFiles g detail output).map fun file =>
    tree.place file.path := List.mem_map_of_mem member
  rw [htmlFiles, places_pageSet g detail _ tree (isName_htmlLocation output)] at listed
  obtain ⟨way, _, same⟩ := List.mem_map.1 listed
  rw [fst_htmlLocation, Path.place_join_name _ _ isName_html, List.append_assoc] at same
  exact ⟨way, same.symm⟩

/-- None of them is to stand at the place of the working directory or around it. -/
theorem not_prefix_working {working : Place} (plain : ∀ path, output = some path → IsPlain path)
    (clear : ∀ path, output = some path → Path.isAbsolute path = true → "html" ∉ working)
    {file : OutputFile} (member : file ∈ htmlFiles g detail output) :
    ¬ (FileTree.bare working).place file.path <+: working := by
  obtain ⟨way, same⟩ := exists_place_eq (FileTree.bare working) member
  rw [same]
  intro around
  by_cases absolute : ∃ path, output = some path ∧ Path.isAbsolute path = true
  · obtain ⟨path, given, absolute⟩ := absolute
    exact clear path given absolute (around.subset (by simp))
  · have relative (path) (given : output = some path) : Path.isAbsolute path = false :=
      eq_false_of_ne_true fun starts => absolute ⟨path, given, starts⟩
    have inside := Path.working_prefix_place (FileTree.bare working) (isAbsolute_surroundings relative)
      (isPlain_surroundings plain)
    have longer := (inside.trans (List.prefix_append _ ("html" :: way))).length_le
    have shorter := around.length_le
    have further := inside.length_le
    simp only [List.length_append, List.length_cons] at shorter
    change working.length ≤ _ at further
    omega

theorem writeFiles_htmlFiles_iff {working : Place}
    (plain : ∀ path, output = some path → IsPlain path) :
    ((FileTree.bare working).writeFiles (htmlFiles g detail output)).value.2 = .ok () ↔
      ¬ Collides g output ∧ ∀ file ∈ htmlFiles g detail output,
        ¬ (FileTree.bare working).place file.path <+: working := by
  rw [FileTree.writeFiles_bare_eq_ok_iff (fun _ member => isPlain_htmlFiles plain member)
      (fun _ member => endsIn_htmlFiles member), apart_iff_prefixFree, prefixFree_places_htmlFiles_iff]

end Locations

/-- Files that go to different places, wherever the working directory is. None of them is in the way of
another unless the output path collides with the directory for the elements. Else a working directory with
nothing in it takes them, if none is to stand in its place or around it. That can only be asked for by an
absolute output path, and only if a directory there is called as that for the pages. -/
structure Fits (g : Grammar) (output : Option String) (files : List OutputFile) : Prop where
  nodup : ∀ tree : FileTree, (files.map fun file => tree.place file.path).Nodup
  prefixFree_iff : ∀ tree : FileTree,
    PrefixFree (files.map fun file => tree.place file.path) ↔ ¬ Collides g output
  writable_iff : ∀ working, ((FileTree.bare working).writeFiles files).value.2 = .ok () ↔
    ¬ Collides g output ∧ ∀ file ∈ files, ¬ (FileTree.bare working).place file.path <+: working
  outside : ∀ working,
    (∀ path, output = some path → Path.isAbsolute path = true → "html" ∉ working) →
      ∀ file ∈ files, ¬ (FileTree.bare working).place file.path <+: working

/-- What is rendered as pages fits into an empty directory, but for an index page in the place of the
directory for the elements. -/
theorem fits_of_render {settings : Settings} (html : settings.format = .html)
    (plain : ∀ path, settings.output = some path → IsPlain path) (g : Grammar) :
    ∃ files, render settings g g.elementIndex (.ofGrammar g) = .files files ∧
      Fits g settings.output files := by
  refine ⟨htmlFiles g settings.detail settings.output, ?_, nodup_places_htmlFiles,
    prefixFree_places_htmlFiles_iff, fun _ => writeFiles_htmlFiles_iff plain,
    fun _ clear _ => not_prefix_working plain clear⟩
  rw [render, html]
  rfl

theorem book_fits : ∃ files,
    render { format := .html, output := some "out/book.html" } book book.elementIndex
        (.ofGrammar book) = .files files ∧
      (FileTree.empty.writeFiles files).value.2 = .ok () := by
  have html : ({ format := .html, output := some "out/book.html" } : Settings).format = .html := rfl
  have plain : IsPlain "out/book.html" := by decide +kernel
  obtain ⟨files, rendered, fits⟩ := fits_of_render html
    (fun path same => Option.some.inj same ▸ plain) book
  have clear : "html" ∉ ["tmp", "work"] := by decide
  refine ⟨files, rendered,
    (fits.writable_iff _).2 ⟨fun collides => ?_, fits.outside _ fun _ _ _ => clear⟩⟩
  have other : Path.fileName? "out/book.html" ≠ some "elements" := by decide +kernel
  exact other collides.1

/-- Pages of which the index page is to be called as the directory of the others cannot be written. -/
theorem exists_pages_unwritable : ¬ ∀ (g : Grammar) (settings : Settings), settings.format = .html →
    (∀ path, settings.output = some path → Path.isAbsolute path = false ∧
      ∀ component ∈ Path.components path, IsName component) →
    ∀ files, render settings g g.elementIndex (.ofGrammar g) = .files files →
      PrefixFree (files.map fun file => FileTree.empty.place file.path) ∧
        (FileTree.empty.writeFiles files).value.2 = .ok () := by
  intro all
  have collides : Collides book (some "elements") := ⟨by decide +kernel, by decide +kernel⟩
  have written := all book { format := .html, output := some "elements" } rfl
    (fun path same => ?_) (htmlFiles book .full (some "elements")) rfl
  · exact (prefixFree_places_htmlFiles_iff _).1 written.1 collides
  · cases same
    refine ⟨isName_elements.isAbsolute, fun component member => ?_⟩
    rw [isName_elements.components, List.mem_singleton] at member
    exact member ▸ isName_elements

end RelaxDoc.Report
