import RelaxDoc.Proofs.File.RollBack

/-! What writing files does to a tree. If all are written, there are the files with their last
contents and the directories around them; whether they are or not, nothing else that was there is
touched. -/
namespace RelaxDoc.FileTree

open RelaxDoc.Path (IsPlain)

variable {tree now made later : FileTree} {path : String} {written noted : Written}
  {done files : List OutputFile} {place : Place}

/-- New directories that are made along a path stand around its place. -/
theorem Making.within {paths : List String} {failure : Option IoError} (sound : tree.Sound)
    (making : Making tree paths made failure) (ascent : IsAscent paths)
    (plain : ∀ path ∈ paths.head?, IsPlain path) (changed : made.get? place ≠ tree.get? place) :
    ∃ path ∈ paths.head?, place <+: tree.place path := by
  -- What is made for the paths around the first stands around the place of the first too.
  have inside {path : String} {outer : List String} (ascent : IsAscent (path :: outer))
      (plain : IsPlain path) (around : ∃ other ∈ outer.head?, place <+: tree.place other) :
      place <+: tree.place path := by
    obtain ⟨other, head, below⟩ := around
    cases outer with
    | nil => cases head
    | cons next rest =>
      cases head
      exact below.trans ((List.isChain_cons_cons.1 ascent).1.2.prefix_place plain)
  induction making with
  | nil | here | present | blocked => exact absurd rfl changed
  | made _ makes =>
    rw [(sound.made_of_makeDirectory makes).get?] at changed
    split at changed
    · rename_i same
      exact ⟨_, rfl, same ▸ List.prefix_refl _⟩
    · exact absurd rfl changed
  | failed _ _ _ ih | found _ _ _ _ ih | refused _ _ _ _ _ ih =>
    have around := ih ascent.tail (ascent.plain_tail (plain _ rfl)) changed
    exact ⟨_, rfl, inside ascent (plain _ rfl) around⟩
  | further _ _ making makes ih =>
    obtain ⟨also, adds⟩ := making.adds sound
    rw [(also.made_of_makeDirectory makes).get?, place_eq adds.working] at changed
    refine ⟨_, rfl, ?_⟩
    split at changed
    · rename_i same
      exact same ▸ List.prefix_refl _
    · exact inside ascent (plain _ rfl) (ih ascent.tail (ascent.plain_tail (plain _ rfl)) changed)

/-- New directories that are made for a file stand around its place. -/
theorem prefix_of_prepare (sound : tree.Sound) (plain : IsPlain path)
    (changed : (tree.prepare written path).1.get? place ≠ tree.get? place) :
    place <+: tree.place path := by
  unfold prepare at changed
  cases parent : directoryOf? path with
  | none =>
    simp only [parent] at changed
    exact absurd rfl changed
  | some directory =>
    have above := Path.isAround_of_parent? (Option.filter_eq_some_iff.1 parent).1
    have made : (tree.makeDirectories (Path.ancestors directory)).1.get? place ≠
        tree.get? place := by
      simp only [parent] at changed
      generalize tree.makeDirectories (Path.ancestors directory) = result at changed ⊢
      obtain ⟨around, failure⟩ := result
      cases failure <;> exact changed
    have making := making_makeDirectories tree (Path.ancestors directory)
    obtain ⟨other, head, below⟩ := making.within sound (isAscent_ancestorsUpTo _ above.trimmed)
      (by rintro other ⟨⟩; exact above.isPlain plain) made
    cases head
    exact below.trans (above.prefix_place plain)

/-- The content of the last file that is written to a place. -/
def lastContent? (tree : FileTree) (files : List OutputFile) (place : Place) : Option (List UInt8) :=
  (files.filter fun file => tree.place file.path = place).getLast?.map fun file =>
    Text.encode file.content

theorem lastContent?_concat (done : List OutputFile) (file : OutputFile) (place : Place) :
    tree.lastContent? (done ++ [file]) place =
      if tree.place file.path = place then some (Text.encode file.content)
      else tree.lastContent? done place := by
  unfold lastContent?
  by_cases same : tree.place file.path = place <;> simp [same]

theorem lastContent?_eq_none_iff :
    tree.lastContent? files place = none ↔ ∀ file ∈ files, tree.place file.path ≠ place := by
  simp [lastContent?]

theorem lastContent?_of_split {before later : List OutputFile} {file : OutputFile}
    (last : ∀ other ∈ later, tree.place other.path ≠ tree.place file.path) :
    tree.lastContent? (before ++ file :: later) (tree.place file.path) =
      some (Text.encode file.content) := by
  have rest : later.filter (fun other => tree.place other.path = tree.place file.path) = [] := by
    simpa using last
  simp [lastContent?, rest]

/-- How far writing files has changed a tree: there are the files with their last contents, and
besides them at most new directories around their places. -/
structure Alters (tree : FileTree) (done : List OutputFile) (now : FileTree) : Prop where
  working : now.working = tree.working
  content : ∀ place content, tree.lastContent? done place = some content →
    now.get? place = some (.file content)
  others : ∀ place, tree.lastContent? done place = none → now.get? place = tree.get? place ∨
    (tree.get? place = none ∧ now.get? place = some .directory ∧
      ∃ file ∈ done, place <+: tree.place file.path)

namespace Alters

theorem outset (tree : FileTree) : Alters tree [] tree := ⟨rfl, nofun, fun _ _ => .inl rfl⟩

/-- One more file, with the directories that are made for it. -/
theorem step (alters : Alters tree done now) {file : OutputFile} (adds : now.AddsDirectories made)
    (within : ∀ place, made.get? place ≠ now.get? place → place <+: tree.place file.path)
    (wrote : Wrote made file.path (Text.encode file.content) later) :
    Alters tree (done ++ [file]) later where
  working := wrote.working.trans (adds.working.trans alters.working)
  content place content last := by
    rw [lastContent?_concat] at last
    rw [wrote.get?, place_eq (adds.working.trans alters.working)]
    split at last
    · rename_i here
      rw [if_pos here.symm, Option.some.inj last]
    · rename_i apart
      rw [if_neg (Ne.symm apart)]
      have file := alters.content place content last
      rcases adds.cases place with same | ⟨none, _⟩
      · rw [same, file]
      · rw [none] at file
        cases file
  others place last := by
    rw [lastContent?_concat] at last
    rw [wrote.get?, place_eq (adds.working.trans alters.working)]
    split at last
    · cases last
    rename_i apart
    rw [if_neg (Ne.symm apart)]
    have before := alters.others place last
    by_cases same : made.get? place = now.get? place
    · rw [same]
      refine before.imp_right fun ⟨missing, directory, other, member, below⟩ => ?_
      exact ⟨missing, directory, other, List.mem_append_left _ member, below⟩
    · obtain ⟨none, directory⟩ := (adds.cases place).resolve_left same
      right
      refine ⟨?_, directory, file, by simp, within place same⟩
      rcases before with old | ⟨missing, _⟩
      · rw [← old, none]
      · exact missing

/-- At the place of a file that is written there is a file. -/
theorem exists_file (alters : Alters tree files now) {file : OutputFile} (member : file ∈ files) :
    ∃ content, now.get? (tree.place file.path) = some (.file content) := by
  have listed : tree.lastContent? files (tree.place file.path) ≠ none := fun none =>
    lastContent?_eq_none_iff.1 none file member rfl
  obtain ⟨content, last⟩ := Option.ne_none_iff_exists'.1 listed
  exact ⟨content, alters.content _ _ last⟩

end Alters

/-- Files are written one after the other if all can be. -/
theorem writeAll_cons_eq_none {file : OutputFile} {rest : List OutputFile} {after : FileTree}
    (wrote : tree.writeAll written (file :: rest) = (after, noted, none)) :
    ∃ made prepared next, tree.prepare written file.path = (made, prepared, none) ∧
      made.write file.path (Text.encode file.content) = .ok next ∧
      next.writeAll { prepared with files := prepared.files ++ [file.path] } rest =
        (after, noted, none) := by
  unfold writeAll at wrote
  split at wrote
  · cases wrote
  · rename_i made prepared same
    split at wrote
    · cases wrote
    · rename_i next writes
      exact ⟨made, prepared, next, same, writes, wrote⟩

/-- If all files are written, the tree is altered by just them. -/
theorem Alters.run {after : FileTree} (alters : Alters tree done now) (sound : now.Sound)
    (plain : ∀ file ∈ files, IsPlain file.path)
    (wrote : now.writeAll written files = (after, noted, none)) :
    Alters tree (done ++ files) after ∧ after.Sound := by
  induction files generalizing now written done with
  | nil =>
    cases wrote
    rw [List.append_nil]
    exact ⟨alters, sound⟩
  | cons file rest ih =>
    obtain ⟨here, others⟩ := List.forall_mem_cons.1 plain
    obtain ⟨made, prepared, next, prepares, writes, further⟩ := writeAll_cons_eq_none wrote
    have within (place : Place) (changed : made.get? place ≠ now.get? place) :
        place <+: tree.place file.path := by
      rw [← place_eq alters.working]
      apply prefix_of_prepare sound here
      rw [prepares]
      exact changed
    obtain ⟨also, adds⟩ : made.Sound ∧ now.AddsDirectories made := by
      have around := prepares_prepare sound written file.path
      rw [prepares] at around
      cases around with
      | nothing => exact ⟨sound, .refl _⟩
      | made also adds _ _ => exact ⟨also, adds⟩
    have wrote := also.wrote_of_write writes
    rw [List.append_cons]
    exact ih (alters.step adds within wrote) wrote.sound others further

/-- A tree with files written to it and nothing else changed. -/
structure Filled (tree : FileTree) (files : List OutputFile) (after : FileTree) : Prop where
  working : after.working = tree.working
  /-- The last file that is written to a place stands there. -/
  content : ∀ before file later, files = before ++ file :: later →
    (∀ other ∈ later, tree.place other.path ≠ tree.place file.path) →
    after.get? (tree.place file.path) = some (.file (Text.encode file.content))
  /-- Around the files there are directories, in the place of nothing but directories. -/
  around : ∀ file ∈ files, ∀ place, place <+: tree.place file.path →
    place ≠ tree.place file.path → after.get? place = some .directory ∧
      (tree.get? place = none ∨ tree.get? place = some .directory)
  elsewhere : ∀ place, (∀ file ∈ files, ¬ place <+: tree.place file.path) →
    after.get? place = tree.get? place

/-- In a sound tree there are directories around all that stands there. -/
theorem Sound.directory_of_prefix (sound : tree.Sound) {inner : Place} {entry : Entry}
    (found : tree.get? inner = some entry) (below : place <+: inner) (apart : place ≠ inner) :
    tree.get? place = some .directory := by
  obtain ⟨more, rfl⟩ := below
  cases more with
  | nil => exact absurd (List.append_nil place).symm apart
  | cons name more =>
    refine Classical.byContradiction fun missing => ?_
    rw [sound.get?_below missing] at found
    cases found

theorem Alters.filled (alters : Alters tree files now) (sound : now.Sound) :
    Filled tree files now where
  working := alters.working
  content before file later split last := by
    apply alters.content
    rw [split]
    exact lastContent?_of_split last
  around file member place below apart := by
    obtain ⟨content, found⟩ := alters.exists_file member
    have directory := sound.directory_of_prefix found below apart
    refine ⟨directory, ?_⟩
    cases here : tree.lastContent? files place with
    | some content =>
      rw [alters.content place content here] at directory
      cases directory
    | none =>
      rcases alters.others place here with same | ⟨missing, _⟩
      · exact .inr (same ▸ directory)
      · exact .inl missing
  elsewhere place apart := by
    have unlisted : tree.lastContent? files place = none :=
      lastContent?_eq_none_iff.2 fun file member same =>
        apart file member (same ▸ List.prefix_refl _)
    rcases alters.others place unlisted with same | ⟨_, _, file, member, below⟩
    · exact same
    · exact absurd below (apart file member)

/-- What writing files leaves alone, also if it fails. -/
structure Keeps (tree : FileTree) (files : List OutputFile) (after : FileTree) : Prop where
  working : after.working = tree.working
  directory : ∀ place, tree.get? place = some .directory → after.get? place = some .directory
  file : ∀ place content, (∀ file ∈ files, tree.place file.path ≠ place) →
    tree.get? place = some (.file content) → after.get? place = some (.file content)

theorem Undone.keeps {rest : List OutputFile} (undone : Undone tree done now) :
    Keeps tree (done ++ rest) now where
  working := undone.directories.working
  directory := undone.directories.directory
  file place content apart found := by
    rw [undone.kept place (fun file member => apart file (List.mem_append_left _ member)), found]
    rw [found]
    exact nofun

theorem Stage.keeps (stage : Stage tree now written)
    (names : written.files = files.map OutputFile.path) : Keeps tree files now where
  working := stage.grows.working
  directory := stage.grows.directory
  file place content apart found := by
    have unlisted : place ∉ written.files.map tree.place := by
      rw [names]
      simpa using apart
    rcases stage.others place unlisted with same | ⟨none, _⟩
    · rw [same, found]
    · rw [none] at found
      cases found

/-- Writing files without steps outwards puts them in their places, the last of several in the same
place, with the directories around them, and changes nothing else. If it fails, the files and
directories that were there are still there, up to the files in places of the list. -/
theorem filled_and_keeps_of_write {after : FileTree} {result : Except Error Unit}
    (sound : tree.Sound) (plain : ∀ file ∈ files, IsPlain file.path)
    (wrote : (tree.writeFiles files).value = (after, result)) :
    (result = .ok () → Filled tree files after) ∧ Keeps tree files after := by
  have outset : Progress True tree tree ⟨[], []⟩ [] := .outset True sound
  rw [value_writeFiles] at wrote
  rcases outset.run files fun _ => plain with ⟨ended, noted, whole, progress⟩ |
    ⟨done, failing, rest, stopped, noted, error, split, fails, progress, _⟩
  · rw [whole] at wrote
    cases wrote
    refine ⟨fun _ => ?_, progress.stage.keeps progress.names⟩
    obtain ⟨alters, also⟩ := (Alters.outset tree).run sound plain whole
    exact alters.filled also
  · rw [fails] at wrote
    cases wrote
    refine ⟨nofun, ?_⟩
    rw [split]
    exact progress.undone.keeps

/-- A file in a directory and one next to it, in a working directory. -/
def rewrittenTree : FileTree :=
  ⟨["w"], [(["w", "out"], .directory), (["w", "out", "a"], .file [1]), (["w", "b"], .file [2])]⟩

theorem sound_rewrittenTree : rewrittenTree.Sound := sound_of_known (by decide)

/-- Files of which two are written to one place, by a relative path and by an absolute one, with another
in between for which a directory is made. -/
def rewritingFiles : List OutputFile := [⟨"./out/a", "b"⟩, ⟨"out/new//x", "c"⟩, ⟨"/w/out/a", "d"⟩]

theorem rewritten_filled : ∃ after, rewrittenTree.Sound ∧
    (∀ file ∈ rewritingFiles, IsPlain file.path) ∧
    (rewrittenTree.writeFiles rewritingFiles).value = (after, .ok ()) ∧
    Filled rewrittenTree rewritingFiles after ∧ Keeps rewrittenTree rewritingFiles after ∧
    after.find? ["out", "a"] = some (.file [100]) ∧ after.find? ["out", "new"] = some .directory ∧
    after.find? ["b"] = some (.file [2]) := by
  have plain : ∀ file ∈ rewritingFiles, IsPlain file.path := by decide +kernel
  have wrote : (rewrittenTree.writeFiles rewritingFiles).value =
      (⟨["w"], [(["w", "out"], .directory), (["w", "b"], .file [2]), (["w", "out", "new"], .directory),
        (["w", "out", "new", "x"], .file [99]), (["w", "out", "a"], .file [100])]⟩, .ok ()) := by
    decide +kernel
  obtain ⟨filled, keeps⟩ := filled_and_keeps_of_write sound_rewrittenTree plain wrote
  have last :=
    (filled rfl).content [⟨"./out/a", "b"⟩, ⟨"out/new//x", "c"⟩] ⟨"/w/out/a", "d"⟩ [] rfl nofun
  have around := (filled rfl).around ⟨"out/new//x", "c"⟩ (by decide) ["w", "out", "new"]
    (by decide +kernel) (by decide +kernel)
  have other := keeps.file ["w", "b"] [2] (by decide +kernel) rfl
  have place : rewrittenTree.place "/w/out/a" = ["w", "out", "a"] := by decide +kernel
  have bytes : Text.encode "d" = [100] := by decide +kernel
  rw [place, bytes] at last
  exact ⟨_, sound_rewrittenTree, plain, wrote, filled rfl, keeps, last, around.1, other⟩

/-- What then stands in the working directory. -/
example : (rewrittenTree.writeFiles rewritingFiles).value.1.entries =
    [(["out"], .directory), (["b"], .file [2]), (["out", "new"], .directory),
      (["out", "new", "x"], .file [99]), (["out", "a"], .file [100])] := by
  decide +kernel

end RelaxDoc.FileTree
