import RelaxDoc.Proofs.File.Outermost

/-! How far writing files has come. At every stage the files written and the directories noted are
there to be removed, and with plain paths there is nothing else that is new. -/
namespace RelaxDoc.FileTree

open RelaxDoc.Path (IsPlain)

variable {tree before now made later : FileTree} {path : String} {written : Written}

/-- A path that leads to where a file may stand. -/
structure CanHold (tree : FileTree) (path : String) : Prop where
  located : ∃ entry, tree.locate path = .ok ⟨tree.place path, entry, false⟩
  free : tree.get? (tree.place path) ≠ some .directory

/-- More directories leave a path where it is, unless one of them is at its place. -/
theorem CanHold.grows (can : tree.CanHold path) (also : later.Sound) (grows : tree.Grows later)
    (free : later.get? (tree.place path) ≠ some .directory) : later.CanHold path := by
  obtain ⟨entry, found⟩ := can.located
  rw [← place_eq grows.working] at found free
  exact ⟨⟨_, grows.locate also found⟩, free⟩

/-- A file at the place of a path, new or in the place of another. -/
structure Wrote (tree : FileTree) (path : String) (content : List UInt8) (later : FileTree) :
    Prop extends CanHold tree path where
  working : later.working = tree.working
  get? : ∀ place, later.get? place =
    if place = tree.place path then some (.file content) else tree.get? place
  sound : later.Sound

theorem Sound.wrote_of_write {content : List UInt8} (sound : tree.Sound)
    (writes : tree.write path content = .ok later) : Wrote tree path content later := by
  cases found : tree.locate path with
  | error e =>
    simp only [write, found, bind, Except.bind] at writes
    cases writes
  | ok target =>
    obtain ⟨place, entry, slash⟩ := target
    obtain ⟨same, stands⟩ := sound.get?_of_locate found
    simp only [write, found, bind, Except.bind] at writes
    split at writes
    · cases writes
    rename_i plain
    rw [Bool.not_eq_true] at plain
    have other : entry ≠ some .directory := by
      rintro rfl
      cases writes
    have result : later = tree.insert place (.file content) := by
      split at writes
      · exact absurd rfl other
      · cases writes
        rfl
    obtain ⟨here, last, split, directory⟩ := sound.exists_around found other
    rw [← stands] at other
    subst same plain result
    refine ⟨⟨⟨entry, found⟩, other⟩, rfl, fun _ => get?_insert (not_prefix_of_get? other), ?_⟩
    rw [split] at other ⊢
    exact sound.insert directory other

/-- Directories that can be removed one after the other. -/
def Removable : FileTree → List String → Prop
  | _, [] => True
  | tree, directory :: rest =>
    (∃ slash, tree.locate directory = .ok ⟨tree.place directory, some .directory, slash⟩) ∧
      ¬ tree.place directory <+: tree.working ∧
      Removable (tree.eraseBelow (tree.place directory)) rest

theorem Grows.eraseBelow {place : Place} (grows : tree.Grows later)
    (inside : ¬ place <+: tree.working) : (tree.eraseBelow place).Grows (later.eraseBelow place) := by
  have inside' : ¬ place <+: later.working := grows.working ▸ inside
  refine ⟨grows.working, fun other directory => ?_⟩
  rw [get?_eraseBelow inside] at directory
  rw [get?_eraseBelow inside']
  split at directory
  · cases directory
  · rename_i apart
    rw [if_neg apart]
    exact grows.directory other directory

/-- With more directories around them the same can be removed. -/
theorem Removable.grows {directories : List String} (removable : tree.Removable directories)
    (sound : tree.Sound) (also : later.Sound) (grows : tree.Grows later) :
    later.Removable directories := by
  induction directories generalizing tree later with
  | nil => exact trivial
  | cons directory rest ih =>
    obtain ⟨⟨slash, found⟩, inside, further⟩ := removable
    have there := grows.locate also found
    have inside' : ¬ tree.place directory <+: later.working := grows.working ▸ inside
    rw [grows.directory _ (sound.get?_of_locate found).2] at there
    rw [Removable, place_eq grows.working]
    refine ⟨⟨slash, there⟩, inside', ?_⟩
    exact ih further (sound.eraseBelow inside) (also.eraseBelow inside') (grows.eraseBelow inside)

/-- How far writing files has come: which files were written, and which directories were made for
them. -/
structure Stage (before now : FileTree) (written : Written) : Prop where
  sound : now.Sound
  grows : before.Grows now
  files : ∀ path ∈ written.files, now.CanHold path ∧
    ∃ content, now.get? (before.place path) = some (.file content)
  /-- Besides the files there are new directories at most. -/
  others : ∀ place, place ∉ written.files.map before.place →
    now.get? place = before.get? place ∨
      (before.get? place = none ∧ now.get? place = some .directory)
  removable : now.Removable written.directories.reverse
  /-- There was nothing in the directories that are noted. -/
  fresh : ∀ directory ∈ written.directories, ∀ place, before.place directory <+: place →
    before.get? place = none

/-- All directories that are new stand in ones that are noted. -/
def Covered (before now : FileTree) (written : Written) : Prop :=
  ∀ place, before.get? place = none → now.get? place = some .directory →
    ∃ directory ∈ written.directories, before.place directory <+: place

namespace Stage

theorem outset (sound : tree.Sound) : Stage tree tree ⟨[], []⟩ :=
  ⟨sound, .refl tree, nofun, fun _ _ => .inl rfl, trivial, nofun⟩

theorem place_eq (stage : Stage before now written) : now.place = before.place :=
  FileTree.place_eq stage.grows.working

theorem adds (stage : Stage before now written) (sound : made.Sound)
    (adds : now.AddsDirectories made) : Stage before made written where
  sound := sound
  grows := stage.grows.trans adds.grows
  files path member := by
    obtain ⟨can, content, file⟩ := stage.files path member
    have still : made.get? (before.place path) = some (.file content) := by
      rcases adds.cases (before.place path) with same | ⟨none, _⟩
      · rw [same, file]
      · rw [none] at file
        cases file
    exact ⟨can.grows sound adds.grows (by simp [stage.place_eq, still]), content, still⟩
  others place apart := by
    rcases stage.others place apart with same | ⟨none, directory⟩
    · rw [← same]
      exact adds.cases place
    · exact .inr ⟨none, adds.grows.directory place directory⟩
  removable := stage.removable.grows stage.sound sound adds.grows
  fresh := stage.fresh

/-- What is missing at some stage was missing from the beginning. -/
theorem missing (stage : Stage before now written) {place : Place}
    (none : now.get? place = none) : before.get? place = .none := by
  have apart : place ∉ written.files.map before.place := by
    intro member
    obtain ⟨path, among, rfl⟩ := List.mem_map.1 member
    obtain ⟨_, content, file⟩ := stage.files path among
    rw [none] at file
    cases file
  rcases stage.others place apart with same | ⟨_, directory⟩
  · rw [← same, none]
  · rw [none] at directory
    cases directory

/-- A directory that was made is noted: nothing noted before stands in it. -/
theorem note (stage : Stage before now written) (sound : made.Sound)
    (adds : now.AddsDirectories made) {directory outermost : String}
    (out : now.IsOutermost made directory outermost) :
    Stage before made { written with directories := written.directories ++ [outermost] } := by
  have later := stage.adds sound adds
  obtain ⟨slash, found⟩ := out.located
  have missing := (stage.sound.get?_of_locate found).2
  have inside : ¬ now.place outermost <+: now.working := not_prefix_of_get? (by simp [missing])
  have inside' : ¬ now.place outermost <+: made.working := adds.working ▸ inside
  refine ⟨sound, later.grows, later.files, later.others, ?_, ?_⟩
  · have there := adds.grows.locate sound found
    rw [out.directory] at there
    rw [List.reverse_append, List.reverse_singleton, List.singleton_append, Removable,
      FileTree.place_eq adds.working]
    refine ⟨⟨slash, there⟩, inside', ?_⟩
    refine stage.removable.grows stage.sound (sound.eraseBelow inside')
      ⟨adds.working, fun place old => ?_⟩
    have apart : ¬ now.place outermost <+: place := by
      intro below
      rw [stage.sound.get?_eq_none_of_prefix missing below] at old
      cases old
    rw [get?_eraseBelow inside', if_neg apart]
    exact adds.grows.directory place old
  · intro other member place below
    rcases List.mem_append.1 member with earlier | last
    · exact stage.fresh other earlier place below
    · rw [List.mem_singleton.1 last, ← stage.place_eq] at below
      exact stage.missing (stage.sound.get?_eq_none_of_prefix missing below)

theorem write (stage : Stage before now written) {content : List UInt8}
    (wrote : Wrote now path content later) :
    Stage before later { written with files := written.files ++ [path] } := by
  have grows : now.Grows later := by
    refine ⟨wrote.working, fun place directory => ?_⟩
    have apart : place ≠ now.place path := fun same => wrote.free (same ▸ directory)
    rw [wrote.get?, if_neg apart, directory]
  refine ⟨wrote.sound, stage.grows.trans grows, ?_, ?_, ?_, stage.fresh⟩
  · intro other member
    have file : ∃ content, later.get? (now.place other) = some (.file content) := by
      rw [wrote.get?]
      split
      · exact ⟨content, rfl⟩
      · rename_i apart
        rcases List.mem_append.1 member with earlier | last
        · rw [stage.place_eq]
          exact (stage.files other earlier).2
        · exact absurd (congrArg now.place (List.mem_singleton.1 last)) apart
    have can : now.CanHold other := by
      rcases List.mem_append.1 member with earlier | last
      · exact (stage.files other earlier).1
      · rw [List.mem_singleton.1 last]
        exact wrote.toCanHold
    obtain ⟨content, still⟩ := file
    refine ⟨can.grows wrote.sound grows (by simp [still]), content, ?_⟩
    rw [← stage.place_eq, still]
  · intro place apart
    rw [List.map_append, List.mem_append, not_or] at apart
    have other : place ≠ now.place path := fun same => apart.2 (by simp [same, stage.place_eq])
    rw [wrote.get?, if_neg other]
    exact stage.others place apart.1
  · exact stage.removable.grows stage.sound wrote.sound grows

end Stage

theorem Covered.write (covered : Covered before now written) {content : List UInt8}
    (wrote : Wrote now path content later) :
    Covered before later { written with files := written.files ++ [path] } := by
  intro place none directory
  rw [wrote.get?] at directory
  split at directory
  · cases directory
  · exact covered place none directory

theorem Covered.note (covered : Covered before now written) (same : now.place = before.place)
    {directory outermost : String} (out : now.IsOutermost made directory outermost)
    (plain : IsPlain directory) :
    Covered before made { written with directories := written.directories ++ [outermost] } := by
  intro place none found
  by_cases old : made.get? place = now.get? place
  · obtain ⟨other, member, below⟩ := covered place none (old ▸ found)
    exact ⟨other, List.mem_append_left _ member, below⟩
  · exact ⟨outermost, by simp, same ▸ out.below plain place old⟩

/-- Files were written in turn. If their paths are plain, all that was made for them is noted. -/
structure Progress (plain : Prop) (before now : FileTree) (written : Written)
    (done : List OutputFile) : Prop where
  stage : Stage before now written
  names : written.files = done.map OutputFile.path
  covered : plain → Covered before now written

namespace Progress

variable {plain : Prop} {done : List OutputFile}

theorem outset (plain : Prop) (sound : tree.Sound) : Progress plain tree tree ⟨[], []⟩ [] where
  stage := .outset sound
  names := rfl
  covered _ place none directory := by
    rw [none] at directory
    cases directory

/-- Making the directory of a file goes on or fails. -/
theorem prepare (progress : Progress plain before now written done)
    (inward : plain → IsPlain path) {noted : Written} {failure : Option IoError}
    (prepares : Prepares now written path made noted failure) :
    Progress plain before made noted done := by
  cases prepares with
  | nothing => exact progress
  | made sound adds around out =>
    refine ⟨progress.stage.note sound adds out, progress.names, fun all => ?_⟩
    exact (progress.covered all).note progress.stage.place_eq out (around (inward all))
  | failed sound adds unchanged =>
    refine ⟨progress.stage.adds sound adds, progress.names, fun all => ?_⟩
    rw [unchanged (inward all)]
    exact progress.covered all

/-- A file is written, or writing stops there whatever would come then. -/
theorem step (progress : Progress plain before now written done) (file : OutputFile)
    (inward : plain → IsPlain file.path) :
    (∃ next noted, (∀ rest, now.writeAll written (file :: rest) = next.writeAll noted rest) ∧
      Progress plain before next noted (done ++ [file])) ∨
    (∃ stopped noted error,
      (∀ rest, now.writeAll written (file :: rest) = (stopped, noted, some error)) ∧
      Progress plain before stopped noted done) := by
  have prepares := prepares_prepare progress.stage.sound written file.path
  have prepared := progress.prepare inward prepares
  generalize same : now.prepare written file.path = result at prepared
  obtain ⟨made, noted, failure⟩ := result
  cases failure with
  | some error => exact .inr ⟨made, noted, error, fun rest => by rw [writeAll, same], prepared⟩
  | none =>
    cases writes : made.write file.path (Text.encode file.content) with
    | error error =>
      exact .inr ⟨made, noted, error, fun rest => by rw [writeAll, same]; simp only [writes], prepared⟩
    | ok next =>
      have wrote := prepared.stage.sound.wrote_of_write writes
      refine .inl ⟨next, { noted with files := noted.files ++ [file.path] }, fun rest => ?_, ?_⟩
      · rw [writeAll, same]
        simp only [writes]
      · refine ⟨prepared.stage.write wrote, ?_, fun all => (prepared.covered all).write wrote⟩
        rw [prepared.names, List.map_append, List.map_singleton]

/-- Files are written up to the first that fails. -/
theorem run (progress : Progress plain before now written done) (files : List OutputFile)
    (inward : plain → ∀ file ∈ files, IsPlain file.path) :
    (∃ after noted, now.writeAll written files = (after, noted, none) ∧
      Progress plain before after noted (done ++ files)) ∨
    (∃ further failing rest stopped noted error, files = further ++ failing :: rest ∧
      now.writeAll written files = (stopped, noted, some error) ∧
      Progress plain before stopped noted (done ++ further) ∧
      (now.writeAll written further).2.2 = none ∧
      (now.writeAll written (further ++ [failing])).2.2 = some error) := by
  induction files generalizing now written done with
  | nil =>
    left
    refine ⟨now, written, rfl, ?_⟩
    rwa [List.append_nil]
  | cons file rest ih =>
    rcases progress.step file fun all => inward all file (List.mem_cons_self ..) with
      ⟨next, noted, goes, stepped⟩ | ⟨stopped, noted, error, stops, ended⟩
    · rcases ih stepped fun all other member => inward all other (List.mem_cons_of_mem _ member) with
        ⟨after, final, wrote, whole⟩ |
        ⟨further, failing, later, stopped, final, error, split, fails, ended, earlier, last⟩
      · left
        refine ⟨after, final, (goes rest).trans wrote, ?_⟩
        rwa [List.append_assoc] at whole
      · right
        refine ⟨file :: further, failing, later, stopped, final, error, ?_, (goes rest).trans fails,
          ?_, ?_, ?_⟩
        · rw [split, List.cons_append]
        · rwa [List.append_assoc] at ended
        · rw [goes, earlier]
        · rw [List.cons_append, goes, last]
    · right
      refine ⟨[], file, rest, stopped, noted, error, rfl, stops rest, ?_, rfl, ?_⟩
      · rwa [List.append_nil]
      · rw [List.nil_append, stops]

end Progress

end RelaxDoc.FileTree
