import RelaxDoc.Proofs.File.Changes

/-! Directories that are made along a path. Without steps outwards they are all made, or none of
them is. -/
namespace RelaxDoc

open RelaxDoc.Path (IsTrimmed IsAround IsPlain)

namespace Path

variable {tree : FileTree} {outer path : String}

theorem IsAround.start_eq (around : IsAround outer path) : tree.start outer = tree.start path := by
  rw [FileTree.start, FileTree.start, around.absolute]

theorem IsAround.isPlain (around : IsAround outer path) (plain : IsPlain path) :
    IsPlain outer := by
  obtain ⟨between, last, after, split, _⟩ := around.components
  rw [IsPlain, split] at plain
  exact fun member => plain (List.mem_append_left _ member)

/-- Without steps outwards the place of a path is that of the path around it or stands there. -/
theorem IsAround.place_cases (around : IsAround outer path) (plain : IsPlain path) :
    tree.place path = tree.place outer ∨ ∃ name, tree.place path = tree.place outer ++ [name] := by
  obtain ⟨between, last, after, split, dots, further, _⟩ := around.components
  have inward : last ≠ ".." := fun same => plain (by simp [split, same])
  have same : tree.place path = turn (tree.place outer) last := by
    rw [FileTree.place, split, List.foldl_append, List.foldl_append, ← around.start_eq]
    rw [foldl_turn_idle dots, List.foldl_cons, foldl_turn_idle further]
    rfl
  rw [same, turn, if_neg inward]
  split
  · exact .inl rfl
  · exact .inr ⟨last, rfl⟩

theorem IsAround.prefix_place (around : IsAround outer path) (plain : IsPlain path) :
    tree.place outer <+: tree.place path := by
  rcases around.place_cases plain with same | ⟨name, same⟩
  · exact ⟨[], by rw [List.append_nil, same]⟩
  · exact ⟨[name], same.symm⟩

end Path

namespace FileTree

variable {tree made around later : FileTree} {path outer : String} {paths : List String}
  {failure : Option IoError}

/-- All that stands in a tree stands in another too, which has more directories at most. -/
structure AddsDirectories (tree later : FileTree) : Prop where
  working : later.working = tree.working
  cases (place : Place) : later.get? place = tree.get? place ∨
    (tree.get? place = none ∧ later.get? place = some .directory)

namespace AddsDirectories

theorem refl (tree : FileTree) : tree.AddsDirectories tree := ⟨rfl, fun _ => .inl rfl⟩

theorem trans (first : tree.AddsDirectories around) (second : around.AddsDirectories later) :
    tree.AddsDirectories later := by
  refine ⟨second.working.trans first.working, fun place => ?_⟩
  rcases first.cases place with same | ⟨missing, directory⟩
  · rw [← same]
    exact second.cases place
  · rcases second.cases place with same | ⟨_, also⟩
    · exact .inr ⟨missing, same.trans directory⟩
    · exact .inr ⟨missing, also⟩

theorem grows (adds : tree.AddsDirectories later) : tree.Grows later := by
  refine ⟨adds.working, fun place directory => ?_⟩
  rcases adds.cases place with same | ⟨_, also⟩
  · rw [same, directory]
  · exact also

end AddsDirectories

/-- A new directory at the place of a path. -/
structure Made (tree : FileTree) (path : String) (later : FileTree) : Prop where
  working : later.working = tree.working
  located : ∃ slash, tree.locate path = .ok ⟨tree.place path, none, slash⟩
  get? : ∀ place, later.get? place =
    if place = tree.place path then some .directory else tree.get? place
  sound : later.Sound

/-- What is no directory at the end of a path stands in one. -/
theorem Sound.exists_around (sound : tree.Sound) {place : Place} {entry : Option Entry}
    {slash : Bool} (found : tree.locate path = .ok ⟨place, entry, slash⟩)
    (other : entry ≠ some .directory) :
    ∃ here last, place = here ++ [last] ∧ tree.get? here = some .directory := by
  rcases locate_cases found with ⟨_, _, same⟩ | ⟨before, last, here, split, walked, same⟩
  · cases same
    exact absurd rfl other
  · have directory := sound.directory_of_start walked
    rw [arrive] at same
    split at same
    · cases same
      exact absurd rfl other
    · split at same
      · cases same
        exact absurd rfl other
      · cases same
        exact ⟨here, last, rfl, directory⟩

theorem Sound.made_of_makeDirectory (sound : tree.Sound)
    (makes : tree.makeDirectory path = .ok made) : Made tree path made := by
  rw [makeDirectory] at makes
  cases found : tree.locate path with
  | error e =>
    rw [found] at makes
    cases makes
  | ok target =>
    obtain ⟨place, entry, slash⟩ := target
    obtain ⟨same, stands⟩ := sound.get?_of_locate found
    simp only [found, bind, Except.bind] at makes
    cases entry with
    | some entry => cases makes
    | none =>
      cases makes
      obtain ⟨here, last, split, directory⟩ := sound.exists_around found nofun
      have free : tree.get? place ≠ some .directory := by simp [stands]
      subst same
      refine ⟨rfl, ⟨slash, found⟩, fun other => get?_insert (not_prefix_of_get? free), ?_⟩
      rw [split] at free ⊢
      exact sound.insert directory free

namespace Made

variable (new : Made tree path made)

include new

theorem missing (sound : tree.Sound) : tree.get? (tree.place path) = none := by
  obtain ⟨slash, found⟩ := new.located
  exact (sound.get?_of_locate found).2

theorem directory : made.get? (tree.place path) = some .directory := by
  rw [new.get?, if_pos rfl]

theorem adds (sound : tree.Sound) : tree.AddsDirectories made := by
  refine ⟨new.working, fun place => ?_⟩
  rw [new.get?]
  split
  · rename_i same
    rw [same]
    exact .inr ⟨new.missing sound, rfl⟩
  · exact .inl rfl

theorem hasDirectory (sound : tree.Sound) : made.hasDirectory path = true := by
  obtain ⟨slash, found⟩ := new.located
  have there := (new.adds sound).grows.locate new.sound found
  exact hasDirectory_iff.2 ⟨_, there, new.directory⟩

end Made

/-- How directories are made along paths, each in the next one: up to what exists already, and from
there back. -/
inductive Making (tree : FileTree) : List String → FileTree → Option IoError → Prop where
  | nil : Making tree [] tree none
  | here {outer : List String} : Making tree ("" :: outer) tree none
  | made {path : String} {outer : List String} {made : FileTree} (filled : path ≠ "")
      (makes : tree.makeDirectory path = .ok made) : Making tree (path :: outer) made none
  | failed {path : String} {outer : List String} {around : FileTree} {error : IoError}
      (filled : path ≠ "") (missing : tree.makeDirectory path = .error .notFound)
      (making : Making tree outer around (some error)) :
      Making tree (path :: outer) around (some error)
  | further {path : String} {outer : List String} {around made : FileTree} (filled : path ≠ "")
      (missing : tree.makeDirectory path = .error .notFound) (making : Making tree outer around none)
      (makes : around.makeDirectory path = .ok made) : Making tree (path :: outer) made none
  | found {path : String} {outer : List String} {around : FileTree} (filled : path ≠ "")
      (missing : tree.makeDirectory path = .error .notFound) (making : Making tree outer around none)
      (present : around.hasDirectory path = true) : Making tree (path :: outer) around none
  | refused {path : String} {outer : List String} {around : FileTree} {error : IoError}
      (filled : path ≠ "") (missing : tree.makeDirectory path = .error .notFound)
      (making : Making tree outer around none) (fails : around.makeDirectory path = .error error)
      (absent : around.hasDirectory path = false) : Making tree (path :: outer) around (some error)
  | present {path : String} {outer : List String} (filled : path ≠ "")
      (present : tree.hasDirectory path = true) : Making tree (path :: outer) tree none
  | blocked {path : String} {outer : List String} {error : IoError} (filled : path ≠ "")
      (fails : tree.makeDirectory path = .error error) : Making tree (path :: outer) tree (some error)

theorem making_makeDirectories (tree : FileTree) (paths : List String) :
    Making tree paths (tree.makeDirectories paths).1 (tree.makeDirectories paths).2 := by
  induction paths with
  | nil => exact .nil
  | cons path outer ih =>
    rw [makeDirectories]
    split
    · rename_i empty
      rw [empty]
      exact .here
    rename_i filled
    split
    · rename_i made makes
      exact .made filled makes
    · rename_i missing
      split
      · rename_i around error same
        rw [same] at ih
        exact .failed filled missing ih
      · rename_i around same
        rw [same] at ih
        split
        · rename_i made makes
          exact .further filled missing ih makes
        · rename_i error fails
          cases present : around.hasDirectory path with
          | true => exact .found filled missing ih present
          | false => exact .refused filled missing ih fails present
    · rename_i error _ fails
      cases present : tree.hasDirectory path with
      | true => exact .present filled present
      | false => exact .blocked filled fails

namespace Making

/-- Directories are added and nothing else, also if making them fails. -/
theorem adds (sound : tree.Sound) (making : Making tree paths made failure) :
    made.Sound ∧ tree.AddsDirectories made := by
  induction making with
  | nil | here | present | blocked => exact ⟨sound, .refl tree⟩
  | made _ makes =>
    have new := sound.made_of_makeDirectory makes
    exact ⟨new.sound, new.adds sound⟩
  | failed _ _ _ ih | found _ _ _ _ ih | refused _ _ _ _ _ ih => exact ih
  | further _ _ _ makes ih =>
    obtain ⟨also, adds⟩ := ih
    have new := also.made_of_makeDirectory makes
    exact ⟨new.sound, adds.trans (new.adds also)⟩

/-- Afterwards there is a directory at the first path. -/
theorem hasDirectory (sound : tree.Sound) (making : Making tree (path :: paths) made none)
    (filled : path ≠ "") : made.hasDirectory path = true := by
  cases making with
  | here => exact absurd rfl filled
  | made _ makes => exact (sound.made_of_makeDirectory makes).hasDirectory sound
  | further _ _ making makes =>
    have also := (making.adds sound).1
    exact (also.made_of_makeDirectory makes).hasDirectory also
  | found _ _ _ present => exact present
  | present _ present => exact present

theorem reaches (sound : tree.Sound) (making : Making tree (path :: paths) made none) :
    made.Reaches path := by
  by_cases empty : path = ""
  · rw [empty]
    exact reaches_of_no_components rfl
  · exact (hasDirectory_iff_reaches empty).1 (making.hasDirectory sound empty)

end Making

/-- Paths of which each is the one around the path before it. -/
def IsAscent (paths : List String) : Prop :=
  paths.IsChain fun path outer => IsTrimmed path ∧ IsAround outer path

/-- Whether a path leads somewhere depends on the directory around it. -/
theorem locate_isOk_iff (trimmed : IsTrimmed path) (around : IsAround outer path) :
    (∃ target, tree.locate path = .ok target) ↔ tree.Reaches outer := by
  obtain ⟨between, last, after, split, dots, _, whole⟩ := around.components
  rw [whole trimmed, ← List.append_assoc] at split
  rw [locate_eq_arrive split, Reaches, around.start_eq, walk_append]
  cases tree.walk (tree.start path) (Path.components outer) with
  | error e => simp [bind, Except.bind, Except.map]
  | ok here => simp [bind, Except.bind, Except.map, walk_idle dots]

theorem locate_of_missing (missing : tree.makeDirectory path = .error .notFound) :
    ∀ target, tree.locate path ≠ .ok target := by
  intro target found
  rw [makeDirectory] at missing
  simp only [found, bind, Except.bind] at missing
  split at missing <;> cases missing

theorem makeDirectory_of_none {target : Target} (found : tree.locate path = .ok target)
    (none : target.entry = none) :
    tree.makeDirectory path = .ok (tree.insert target.place .directory) := by
  simp only [makeDirectory, found, bind, Except.bind, none]
  rfl

theorem IsAscent.tail (ascent : IsAscent (path :: paths)) : IsAscent paths := by
  cases paths with
  | nil => exact .nil
  | cons other rest => exact (List.isChain_cons_cons.1 ascent).2

theorem IsAscent.plain_tail (ascent : IsAscent (path :: paths)) (plain : IsPlain path) :
    ∀ outer ∈ paths.head?, IsPlain outer := by
  intro outer next
  cases paths with
  | nil => cases next
  | cons other rest =>
    cases next
    exact (List.isChain_cons_cons.1 ascent).1.2.isPlain plain

/-- Without steps outwards making directories fails before the first is made: a directory that is
missing can be made as soon as the one around it is there. -/
theorem Making.eq_of_failure (sound : tree.Sound) (making : Making tree paths made failure)
    (fails : failure ≠ none) (ascent : IsAscent paths) (plain : ∀ path ∈ paths.head?, IsPlain path) :
    made = tree := by
  induction making with
  | nil | here | made | further | found | present => exact absurd rfl fails
  | blocked => rfl
  | failed _ _ _ ih => exact ih fails ascent.tail (ascent.plain_tail (plain _ rfl))
  | @refused path outer around error filled missing making refuses absent _ =>
    cases outer with
    | nil =>
      cases making
      rfl
    | cons outer rest =>
      exfalso
      obtain ⟨trimmed, above⟩ := (List.isChain_cons_cons.1 ascent).1
      obtain ⟨also, adds⟩ := making.adds sound
      have reached := making.reaches sound
      obtain ⟨target, found⟩ := (locate_isOk_iff trimmed above).2 reached
      obtain ⟨same, stands⟩ := also.locate_eq_ok found
      have places : around.place = tree.place := place_eq adds.working
      rw [places] at same
      -- What is in the way is no directory, so it was in its place before.
      have other : around.get? (tree.place path) ≠ some .directory := by
        rw [← same, ← stands]
        intro directory
        rw [hasDirectory_iff.2 ⟨target, found, directory⟩] at absent
        cases absent
      have kept : tree.get? (tree.place path) ≠ none := by
        rcases adds.cases (tree.place path) with before | ⟨_, directory⟩
        · rw [← before, ← same, ← stands]
          intro none
          rw [makeDirectory_of_none found none] at refuses
          cases refuses
        · exact absurd directory other
      have directory : tree.get? (tree.place outer) = some .directory := by
        rcases above.place_cases (plain path rfl) with alike | ⟨name, below⟩
        · exact absurd (alike ▸ places ▸ also.get?_of_reaches reached) other
        · exact sound _ name (below ▸ kept)
      have reaches := sound.reaches_of_plain (above.isPlain (plain path rfl)) directory
      obtain ⟨before, earlier⟩ := (locate_isOk_iff trimmed above).2 reaches
      exact locate_of_missing missing before earlier

end FileTree

end RelaxDoc
