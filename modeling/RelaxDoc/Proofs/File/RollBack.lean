import RelaxDoc.Proofs.File.Stages

/-! Failed writes. What was written before the failure is removed again, and with it what stood in
its place; everything else is as it was, up to directories that a path has made on a step outwards. -/
namespace RelaxDoc.FileTree

open RelaxDoc.Path (IsPlain)

variable {tree before now later : FileTree} {path : String} {written : Written}

/-- Removing directories takes away what stands at and below them. -/
theorem get?_removeDirectories {directories : List String} (removable : tree.Removable directories) :
    (removeAll removeDirectory tree directories).value.working = tree.working ∧ ∀ place,
      ((∃ directory ∈ directories, tree.place directory <+: place) →
        (removeAll removeDirectory tree directories).value.get? place = none) ∧
      ((∀ directory ∈ directories, ¬ tree.place directory <+: place) →
        (removeAll removeDirectory tree directories).value.get? place = tree.get? place) := by
  induction directories generalizing tree with
  | nil =>
    exact ⟨rfl, fun _ => ⟨fun ⟨_, member, _⟩ => absurd member List.not_mem_nil, fun _ => rfl⟩⟩
  | cons directory rest ih =>
    obtain ⟨⟨slash, found⟩, inside, further⟩ := removable
    have removed : tree.removeDirectory directory =
        .ok (tree.eraseBelow (tree.place directory)) := by
      simp only [removeDirectory, found, bind, Except.bind]
      rfl
    obtain ⟨working, ih⟩ := ih further
    rw [removeAll, removed]
    refine ⟨working, fun place => ?_⟩
    obtain ⟨gone, kept⟩ := ih place
    have erased : (tree.eraseBelow (tree.place directory)).get? place = _ :=
      get?_eraseBelow inside
    constructor
    · rintro ⟨other, member, below⟩
      by_cases later : ∃ other ∈ rest, tree.place other <+: place
      · exact gone later
      · have here : tree.place directory <+: place := by
          rcases List.mem_cons.1 member with rfl | among
          · exact below
          · exact absurd ⟨other, among, below⟩ later
        rw [if_pos here] at erased
        exact (kept fun other among also => later ⟨other, among, also⟩).trans erased
    · intro apart
      obtain ⟨here, others⟩ := List.forall_mem_cons.1 apart
      rw [if_neg here] at erased
      exact (kept others).trans erased

theorem CanHold.removeFile_cases (can : tree.CanHold path) (sound : tree.Sound) :
    (tree.get? (tree.place path) = none ∧ ∃ error, tree.removeFile path = .error error) ∨
      tree.removeFile path = .ok (tree.erase (tree.place path)) := by
  obtain ⟨entry, found⟩ := can.located
  have stands := (sound.get?_of_locate found).2
  simp only [removeFile, found, bind, Except.bind]
  cases entry with
  | none => exact .inl ⟨stands, _, rfl⟩
  | some entry =>
    cases entry with
    | directory => exact absurd stands can.free
    | file content => exact .inr rfl

/-- Removing a file, if it is still there, leaves nothing at its place and the rest as it is. -/
theorem CanHold.exists_less (can : tree.CanHold path) (sound : tree.Sound) (rest : List String) :
    ∃ less, (removeAll removeFile tree (path :: rest)).value =
        (removeAll removeFile less rest).value ∧
      less.Sound ∧ tree.Grows less ∧ less.Grows tree ∧
      ∀ place, less.get? place = if place = tree.place path then none else tree.get? place := by
  rcases can.removeFile_cases sound with ⟨none, error, fails⟩ | removes
  · refine ⟨tree, by rw [removeAll, fails]; rfl, sound, .refl tree, .refl tree, fun place => ?_⟩
    split
    · rename_i same
      rw [same, none]
    · rfl
  · refine ⟨_, by rw [removeAll, removes], sound.erase can.free, .of_erase can.free,
      ⟨rfl, fun place directory => ?_⟩, ?_⟩
    · rw [get?_erase (not_prefix_of_get? can.free)] at directory
      split at directory
      · cases directory
      · exact directory
    · exact fun place => get?_erase (not_prefix_of_get? can.free)

/-- Removing files takes away what stands at their places; one that is gone already is skipped. -/
theorem get?_removeFiles {files : List String} (sound : tree.Sound)
    (can : ∀ path ∈ files, tree.CanHold path) :
    (removeAll removeFile tree files).value.Sound ∧
      tree.Grows (removeAll removeFile tree files).value ∧
      ∀ place, (removeAll removeFile tree files).value.get? place =
        if place ∈ files.map tree.place then none else tree.get? place := by
  induction files generalizing tree with
  | nil => exact ⟨sound, .refl tree, fun place => rfl⟩
  | cons path rest ih =>
    obtain ⟨here, others⟩ := List.forall_mem_cons.1 can
    obtain ⟨less, same, also, grows, back, left⟩ := here.exists_less sound rest
    obtain ⟨ended, further, gone⟩ :=
      ih also fun other member => (others other member).grows also grows fun directory =>
        (others other member).free (back.directory _ directory)
    rw [same]
    refine ⟨ended, grows.trans further, fun place => ?_⟩
    rw [gone, left, List.map_cons, place_eq grows.working]
    by_cases first : place = tree.place path <;> simp [first]

/-- After rolling back nothing stands where files were written. Elsewhere all is as it was in the
beginning, or there is a new directory that stands in none that is noted. -/
theorem Stage.rollBack (stage : Stage before now written) :
    (now.rollBack written).value.working = before.working ∧
    (∀ path ∈ written.files, (now.rollBack written).value.get? (before.place path) = none) ∧
      ∀ place, place ∉ written.files.map before.place →
        (now.rollBack written).value.get? place = before.get? place ∨
          (before.get? place = none ∧
            (now.rollBack written).value.get? place = some .directory ∧
            now.get? place = some .directory ∧
            ∀ directory ∈ written.directories, ¬ before.place directory <+: place) := by
  have value : (now.rollBack written).value = (removeAll removeDirectory
    (removeAll removeFile now written.files.reverse).value written.directories.reverse).value := rfl
  obtain ⟨sound, grows, less⟩ := get?_removeFiles stage.sound fun path member =>
    (stage.files path (List.mem_reverse.1 member)).1
  have whole := stage.grows.trans grows
  obtain ⟨working, removed⟩ :=
    get?_removeDirectories (stage.removable.grows stage.sound sound grows)
  rw [value]
  generalize (removeAll removeFile now written.files.reverse).value = rest at less whole working removed ⊢
  simp only [List.map_reverse, List.mem_reverse, stage.place_eq] at less
  simp only [List.mem_reverse, FileTree.place_eq whole.working] at removed
  refine ⟨working.trans whole.working, ?_, ?_⟩
  · intro path member
    have none : rest.get? (before.place path) = .none := by
      rw [less, if_pos (List.mem_map_of_mem member)]
    obtain ⟨gone, kept⟩ := removed (before.place path)
    by_cases below : ∃ directory ∈ written.directories, before.place directory <+: before.place path
    · exact gone below
    · rw [kept fun directory member also => below ⟨directory, member, also⟩, none]
  · intro place apart
    obtain ⟨gone, kept⟩ := removed place
    by_cases below : ∃ directory ∈ written.directories, before.place directory <+: place
    · obtain ⟨directory, member, within⟩ := below
      rw [gone ⟨directory, member, within⟩]
      exact .inl (stage.fresh directory member place within).symm
    · have others (directory) (member : directory ∈ written.directories) :
          ¬ before.place directory <+: place := fun also => below ⟨directory, member, also⟩
      rw [kept others, less, if_neg apart]
      rcases stage.others place apart with same | ⟨none, directory⟩
      · exact .inl same
      · exact .inr ⟨none, directory, directory, others⟩

theorem value_writeFiles (tree : FileTree) (files : List OutputFile) :
    (tree.writeFiles files).value = match tree.writeAll ⟨[], []⟩ files with
      | (after, _, none) => (after, .ok ())
      | (stopped, written, some error) => ((stopped.rollBack written).value, .error (.io error)) := by
  rw [writeFiles]
  generalize tree.writeAll ⟨[], []⟩ files = result
  obtain ⟨after, written, failure⟩ := result
  cases failure with
  | none => rfl
  | some error => rfl

theorem value_writeFiles_of_none {files : List OutputFile}
    (wrote : (tree.writeAll ⟨[], []⟩ files).2.2 = none) :
    (tree.writeFiles files).value.2 = .ok () := by
  rw [value_writeFiles]
  generalize tree.writeAll ⟨[], []⟩ files = result at wrote
  obtain ⟨after, written, failure⟩ := result
  cases wrote
  rfl

theorem value_writeFiles_of_some {files : List OutputFile} {error : IoError}
    (fails : (tree.writeAll ⟨[], []⟩ files).2.2 = some error) :
    (tree.writeFiles files).value.2 = .error (.io error) := by
  rw [value_writeFiles]
  generalize tree.writeAll ⟨[], []⟩ files = result at fails
  obtain ⟨after, written, failure⟩ := result
  cases fails
  rfl

/-- What a failed write leaves of a tree after it had written some files. -/
structure Undone (tree : FileTree) (done : List OutputFile) (after : FileTree) : Prop where
  /-- The files are removed, and what stood in their places is not put back. -/
  lost : ∀ file ∈ done, after.get? (tree.place file.path) = none
  kept : ∀ place, (∀ file ∈ done, tree.place file.path ≠ place) → tree.get? place ≠ none →
    after.get? place = tree.get? place
  directories : tree.Grows after
  new : ∀ place, tree.get? place = none →
    after.get? place = none ∨ after.get? place = some .directory

namespace Progress

variable {plain : Prop} {done : List OutputFile}

theorem not_mem_places (progress : Progress plain tree now written done) {place : Place}
    (other : ∀ file ∈ done, tree.place file.path ≠ place) :
    place ∉ written.files.map tree.place := by
  rw [progress.names]
  simpa using other

/-- Where a file was written there was no directory. -/
theorem place_ne (progress : Progress plain tree now written done) {place : Place}
    (directory : tree.get? place = some .directory) :
    ∀ file ∈ done, tree.place file.path ≠ place := by
  rintro file member rfl
  have listed : file.path ∈ written.files := by
    rw [progress.names]
    exact List.mem_map_of_mem member
  rw [← progress.stage.place_eq] at directory
  exact (progress.stage.files _ listed).1.free (progress.stage.grows.directory _ directory)

theorem undone (progress : Progress plain tree now written done) :
    Undone tree done (now.rollBack written).value := by
  obtain ⟨working, gone, others⟩ := progress.stage.rollBack
  have lost : ∀ file ∈ done, (now.rollBack written).value.get? (tree.place file.path) = none := by
    intro file member
    refine gone file.path ?_
    rw [progress.names]
    exact List.mem_map_of_mem member
  have kept : ∀ place, (∀ file ∈ done, tree.place file.path ≠ place) → tree.get? place ≠ none →
      (now.rollBack written).value.get? place = tree.get? place := by
    intro place other found
    rcases others place (progress.not_mem_places other) with same | ⟨none, _⟩
    · exact same
    · exact absurd none found
  refine ⟨lost, kept, ⟨working, fun place directory => ?_⟩, fun place none => ?_⟩
  · rw [kept place (progress.place_ne directory) (by simp [directory]), directory]
  · by_cases written : ∃ file ∈ done, tree.place file.path = place
    · obtain ⟨file, member, rfl⟩ := written
      exact .inl (lost file member)
    · have other : ∀ file ∈ done, tree.place file.path ≠ place :=
        fun file member same => written ⟨file, member, same⟩
      rcases others place (progress.not_mem_places other) with same | ⟨_, directory, _⟩
      · exact .inl (same.trans none)
      · exact .inr directory

/-- With plain paths nothing is left of what was made. -/
theorem get?_rollBack (progress : Progress plain tree now written done) (all : plain)
    {place : Place} (other : ∀ file ∈ done, tree.place file.path ≠ place) :
    (now.rollBack written).value.get? place = tree.get? place := by
  obtain ⟨_, _, others⟩ := progress.stage.rollBack
  rcases others place (progress.not_mem_places other) with same | ⟨none, _, directory, uncovered⟩
  · exact same
  · obtain ⟨noted, member, below⟩ := progress.covered all place none directory
    exact absurd below (uncovered noted member)

end Progress

/-- A failed write leaves all as it was but for the files it had written: what stood in their places
is lost. If paths go outwards there can be directories left too. So without them a tree is as before
exactly if none of the files written before the failure existed. -/
theorem undone_of_failed_write {files : List OutputFile} {after : FileTree} {error : Error}
    (sound : tree.Sound) (failed : (tree.writeFiles files).value = (after, .error error)) :
    ∃ done failing rest, files = done ++ failing :: rest ∧
      (tree.writeFiles done).value.2 = .ok () ∧
      (tree.writeFiles (done ++ [failing])).value.2 = .error error ∧
      Undone tree done after ∧
      ((∀ file ∈ files, IsPlain file.path) →
        (∀ place, tree.get? place = none → after.get? place = none) ∧
        ((∀ place, after.get? place = tree.get? place) ↔
          ∀ file ∈ done, tree.get? (tree.place file.path) = none)) := by
  have outset : Progress (∀ file ∈ files, IsPlain file.path) tree tree ⟨[], []⟩ [] := .outset _ sound
  rw [value_writeFiles] at failed
  rcases outset.run files id with ⟨_, _, wrote, _⟩ |
    ⟨done, failing, rest, stopped, noted, cause, split, fails, progress, earlier, last⟩
  · rw [wrote] at failed
    cases failed
  rw [fails] at failed
  cases failed
  have undone := progress.undone
  refine ⟨done, failing, rest, split, value_writeFiles_of_none earlier,
    value_writeFiles_of_some last, undone, fun all => ?_⟩
  have clean : ∀ place, tree.get? place = none →
      (stopped.rollBack noted).value.get? place = none := by
    intro place none
    by_cases written : ∃ file ∈ done, tree.place file.path = place
    · obtain ⟨file, member, rfl⟩ := written
      exact undone.lost file member
    · rw [progress.get?_rollBack all fun file member same => written ⟨file, member, same⟩, none]
  refine ⟨clean, fun same file member => ?_, fun fresh place => ?_⟩
  · rw [← same]
    exact undone.lost file member
  · by_cases none : tree.get? place = .none
    · rw [clean place none, none]
    · exact undone.kept place (fun file member same => none (same ▸ fresh file member)) none

/-- Two files in a working directory, one of which stands where a directory is asked for below. -/
def blockedTree : FileTree := ⟨["w"], [(["w", "kept"], .file [1]), (["w", "blocker"], .file [2])]⟩

theorem sound_blockedTree : blockedTree.Sound := sound_of_known (by decide)

/-- Three files that are new, of which the last cannot be written. The first two go to one directory, by an
absolute path and by a relative one. -/
def blockedFiles : List OutputFile :=
  [⟨"/w/out/html/index", "i"⟩, ⟨"out//a", "a"⟩, ⟨"./blocker/x", "d"⟩]

theorem blocked_unchanged : blockedTree.Sound ∧
    (blockedTree.writeFiles blockedFiles).value = (blockedTree, .error (.io .fileExists)) ∧
    ∃ done failing rest, blockedFiles = done ++ failing :: rest ∧ Undone blockedTree done blockedTree ∧
      ∀ file ∈ done, blockedTree.get? (blockedTree.place file.path) = none := by
  have failed : (blockedTree.writeFiles blockedFiles).value =
      (blockedTree, .error (.io .fileExists)) := by decide +kernel
  have all : ∀ file ∈ blockedFiles, IsPlain file.path := by decide +kernel
  obtain ⟨done, failing, rest, split, _, _, undone, plain⟩ :=
    undone_of_failed_write sound_blockedTree failed
  exact ⟨sound_blockedTree, failed, done, failing, rest, split, undone,
    (plain all).2.1 fun _ => rfl⟩

example : (blockedTree.writeFiles [⟨"new/../blocker/x/y", "d"⟩]).value =
    (blockedTree.insert ["w", "new"] .directory, .error (.io .fileExists)) := by decide +kernel

example : (blockedTree.writeFiles [⟨"/w/kept", "new"⟩, ⟨"../w/blocker/x", "d"⟩]).value =
    (blockedTree.erase ["w", "kept"], .error (.io .fileExists)) := by decide +kernel

/-- A failed write can change a tree: here the first path is that of a file. -/
theorem exists_overwritten_lost : ¬ ∀ (tree : FileTree) (files : List OutputFile) (after : FileTree)
    (error : Error), tree.Sound → (tree.writeFiles files).value = (after, .error error) →
      ∀ place, after.get? place = tree.get? place := by
  intro unchanged
  have same := unchanged blockedTree [⟨"kept", "new"⟩, ⟨"blocker/x", "d"⟩]
    (blockedTree.erase ["w", "kept"]) (.io .fileExists) sound_blockedTree (by decide +kernel)
    ["w", "kept"]
  exact absurd same (by decide)

end RelaxDoc.FileTree
