import RelaxDoc.Proofs.File.Effect
import RelaxDoc.Proofs.File.Routes

/-! Writing files where no file is in the way. Then they are all written, unless one of them is to stand
in the place of a directory around another. -/
namespace RelaxDoc

namespace Text

/-- A text has at most as many parts that are not empty as it has characters. -/
theorem length_filter_split_le (mark : Char) (cs : List Char) :
    ((split mark cs).filter (· ≠ [])).length ≤ cs.length := by
  induction cs with
  | nil => simp [split]
  | cons c rest ih =>
    rw [split]
    split
    · simpa using Nat.le_succ_of_le ih
    · cases parts : split mark rest with
      | nil => simp
      | cons first others =>
        rw [parts] at ih
        have fewer := List.Sublist.length_le
          (List.Sublist.filter (· ≠ []) (List.sublist_cons_self first others))
        calc (((c :: first) :: others).filter (· ≠ [])).length
            = (others.filter (· ≠ [])).length + 1 := by simp
          _ ≤ ((first :: others).filter (· ≠ [])).length + 1 := Nat.succ_le_succ fewer
          _ ≤ (c :: rest).length := Nat.succ_le_succ ih

end Text

namespace Path

variable {path outer : String}

theorem length_components_le (path : String) : (components path).length ≤ path.length := by
  rw [components, filled, List.length_map, ← String.length_toList]
  exact Text.length_filter_split_le '/' path.toList

/-- The path around another has fewer components. -/
theorem IsAround.length_lt (around : IsAround outer path) :
    (Path.components outer).length < (Path.components path).length := by
  obtain ⟨between, last, after, split, _⟩ := around.components
  rw [split]
  simp only [List.length_append, List.length_cons]
  omega

/-- A path that is in nothing else has no components that count. -/
theorem components_of_no_parent (none : parent? path = none) :
    ∀ component ∈ components path, component = "." := by
  have empty : dropIdle (isAbsolute path) (written path.toList).reverse = [] := by
    rw [parent?] at none
    split at none
    · assumption
    · cases none
  obtain ⟨idle, parts, counts⟩ :=
    exists_idle (isAbsolute path) (getLast?_of_absolute path [] (List.nil_append _).symm)
  rw [empty, List.append_nil] at parts
  refine filled_idle fun part member => counts part ?_
  rw [← parts]
  exact List.mem_reverse.2 member

theorem prefix_turn (here : Place) {component : String} (inward : component ≠ "..") :
    here <+: turn here component := by
  rw [turn, if_neg inward]
  split
  · exact List.prefix_rfl
  · exact List.prefix_append ..

theorem prefix_foldl_turn {components : List String} (plain : ".." ∉ components) (here : Place) :
    here <+: components.foldl turn here := by
  induction components generalizing here with
  | nil => exact List.prefix_rfl
  | cons component rest ih =>
    obtain ⟨inward, others⟩ := not_or.1 (mt List.mem_cons.2 plain)
    exact (prefix_turn here (Ne.symm inward)).trans (ih others _)

/-- Without steps outwards a relative path stays in the working directory. -/
theorem working_prefix_place (tree : FileTree) (relative : isAbsolute path = false)
    (plain : IsPlain path) : tree.working <+: tree.place path := by
  have start : tree.start path = tree.working := by
    rw [FileTree.start, relative]
    rfl
  rw [FileTree.place, start]
  exact prefix_foldl_turn plain tree.working

end Path

namespace FileTree

open RelaxDoc.Path (components turn IsPlain IsTrimmed IsAround IsName EndsIn)

variable {tree made later : FileTree} {path outer name : String} {here place inner : Place}

/-- No file stands at a place or around it. -/
def Passable (tree : FileTree) (place : Place) : Prop :=
  ∀ around, around <+: place → tree.get? around = none ∨ tree.get? around = some .directory

theorem Passable.of_prefix (passable : tree.Passable place) (below : inner <+: place) :
    tree.Passable inner := fun around leading => passable around (leading.trans below)

theorem Passable.adds (passable : tree.Passable place) (adds : tree.AddsDirectories made) :
    made.Passable place := by
  intro around leading
  rcases adds.cases around with same | ⟨_, directory⟩
  · rw [same]
    exact passable around leading
  · exact .inr directory

/-- On the way to a place that no file is around, a directory may be missing and nothing else. -/
theorem Passable.error_of_walk {components : List String} (plain : ".." ∉ components)
    (passable : tree.Passable (components.foldl turn here)) {error : IoError}
    (fails : tree.walk here components = .error error) : error = .notFound := by
  induction components using List.reverseRecOn with
  | nil => cases fails
  | append_singleton before last ih =>
    have inward : last ≠ ".." := fun same => plain (by simp [same])
    have start : ".." ∉ before := fun member => plain (List.mem_append_left _ member)
    rw [List.foldl_append, List.foldl_cons, List.foldl_nil] at passable
    rw [walk_append] at fails
    cases walked : tree.walk here before with
    | error e =>
      rw [walked] at fails
      cases fails
      exact ih start (passable.of_prefix (Path.prefix_turn _ inward)) walked
    | ok around =>
      rw [walked, place_of_walk walked] at fails
      change tree.walk _ [last] = _ at fails
      rw [walk_singleton, enter] at fails
      rw [turn, if_neg inward] at passable
      by_cases dot : last = "."
      · rw [if_pos dot] at fails
        cases fails
      · rw [if_neg dot, if_neg inward] at fails
        rw [if_neg dot] at passable
        rcases passable _ List.prefix_rfl with none | directory
        · simp only [none] at fails
          cases fails
          rfl
        · simp only [directory] at fails
          cases fails

theorem Passable.error_of_locate (plain : IsPlain path) (passable : tree.Passable (tree.place path))
    {error : IoError} (fails : tree.locate path = .error error) : error = .notFound := by
  rcases List.eq_nil_or_concat (components path) with none | ⟨before, last, split⟩
  · by_cases empty : path = ""
    · rw [empty] at fails
      cases fails
      rfl
    · rw [locate_of_no_components none empty] at fails
      cases fails
  · rw [List.concat_eq_append] at split
    rw [locate_eq_arrive split] at fails
    rw [IsPlain, split] at plain
    have inward : last ≠ ".." := fun same => plain (by simp [same])
    rw [FileTree.place, split, List.foldl_append, List.foldl_cons, List.foldl_nil] at passable
    cases walked : tree.walk (tree.start path) before with
    | ok there =>
      rw [walked] at fails
      cases fails
    | error e =>
      rw [walked] at fails
      cases fails
      exact (passable.of_prefix (Path.prefix_turn _ inward)).error_of_walk
        (fun member => plain (List.mem_append_left _ member)) walked

/-- What comes of making one directory where no file is in the way. -/
theorem Sound.makeDirectory_cases (sound : tree.Sound) (plain : IsPlain path)
    (passable : tree.Passable (tree.place path)) :
    (∃ made, tree.makeDirectory path = .ok made) ∨
      (tree.makeDirectory path = .error .notFound ∧ ∀ target, tree.locate path ≠ .ok target) ∨
      (tree.makeDirectory path = .error .fileExists ∧ tree.hasDirectory path = true) := by
  cases found : tree.locate path with
  | error e =>
    have same := passable.error_of_locate plain found
    refine .inr (.inl ⟨?_, nofun⟩)
    simp only [makeDirectory, found, same, bind, Except.bind]
  | ok target =>
    obtain ⟨place, stands⟩ := sound.locate_eq_ok found
    rcases passable _ List.prefix_rfl with none | directory
    · rw [← place, ← stands] at none
      exact .inl ⟨_, makeDirectory_of_none found none⟩
    · rw [← place, ← stands] at directory
      refine .inr (.inr ⟨?_, hasDirectory_iff.2 ⟨target, found, directory⟩⟩)
      simp only [makeDirectory, found, directory, bind, Except.bind]
      rfl

theorem Making.reaches_ancestorsUpTo (sound : tree.Sound) {bound : Nat} (enough : 0 < bound)
    {failure : Option IoError} (making : Making tree (Path.ancestorsUpTo bound path) made failure)
    (succeeds : failure = none) : made.Reaches path := by
  subst succeeds
  cases bound with
  | zero => exact absurd enough (Nat.lt_irrefl _)
  | succ bound => exact making.reaches sound

/-- Once the directory around it is made, a directory that was missing can be made. -/
theorem makeDirectories_of_reaches {around : List String} (filled : path ≠ "")
    (missing : tree.makeDirectory path = .error .notFound)
    (before : tree.makeDirectories around = (made, none)) (sound : made.Sound) (plain : IsPlain path)
    (passable : made.Passable (made.place path)) (trimmed : IsTrimmed path)
    (inside : IsAround outer path) (reaches : made.Reaches outer) :
    (tree.makeDirectories (path :: around)).2 = none := by
  rw [makeDirectories, if_neg filled, missing]
  rcases sound.makeDirectory_cases plain passable with
    ⟨next, makes⟩ | ⟨_, nowhere⟩ | ⟨fails, present⟩
  · simp [before, makes]
  · obtain ⟨target, there⟩ := (locate_isOk_iff trimmed inside).2 reaches
    exact absurd there (nowhere target)
  · simp [before, fails, present]

/-- Where no file is in the way, a directory can be made with all those around it. -/
theorem Sound.makeDirectories_ancestorsUpTo (sound : tree.Sound) (bound : Nat)
    (enough : (components path).length < bound) (trimmed : IsTrimmed path) (plain : IsPlain path)
    (passable : tree.Passable (tree.place path)) :
    (tree.makeDirectories (Path.ancestorsUpTo bound path)).2 = none := by
  -- The bound is never reached, since the path around another has fewer components.
  induction bound generalizing path with
  | zero => exact absurd enough (Nat.not_lt_zero _)
  | succ bound ih =>
    rw [Path.ancestorsUpTo]
    by_cases empty : path = ""
    · rw [makeDirectories, if_pos empty]
    rcases sound.makeDirectory_cases plain passable with
      ⟨made, makes⟩ | ⟨missing, nowhere⟩ | ⟨fails, present⟩
    · rw [makeDirectories, if_neg empty, makes]
    · cases found : Path.parent? path with
      | none =>
        obtain ⟨target, there⟩ := hasDirectory_iff.1 ((hasDirectory_iff_reaches empty).2
          ⟨tree.start path, walk_idle (Path.components_of_no_parent found)⟩)
        exact absurd there.1 (nowhere target)
      | some outer =>
        have around := Path.isAround_of_parent? found
        have fewer : (components outer).length < bound :=
          Nat.lt_of_lt_of_le around.length_lt (Nat.le_of_lt_succ enough)
        have below : tree.place outer <+: tree.place path := around.prefix_place plain
        have made := ih fewer around.trimmed (around.isPlain plain) (passable.of_prefix below)
        have making := making_makeDirectories tree (Path.ancestorsUpTo bound outer)
        obtain ⟨also, adds⟩ := making.adds sound
        have reaches := making.reaches_ancestorsUpTo sound (Nat.zero_lt_of_lt fewer) made
        exact makeDirectories_of_reaches empty missing (Prod.ext rfl made) also plain
          (place_eq adds.working ▸ passable.adds adds) trimmed around reaches
    · rw [makeDirectories, if_neg empty, fails]
      simp [present]

/-- No file is in the way of a new file: none stands around its place, and no directory at it. -/
structure Free (tree : FileTree) (path : String) : Prop where
  around : ∀ around, around <+: tree.place path → around ≠ tree.place path →
    tree.get? around = none ∨ tree.get? around = some .directory
  here : tree.get? (tree.place path) ≠ some .directory

theorem Free.passable (free : tree.Free path) (same : tree.place path = here ++ [name]) :
    tree.Passable here := by
  intro around leading
  apply free.around around
  · rw [same]
    exact leading.trans (List.prefix_append ..)
  · rw [same]
    rintro rfl
    exact absurd leading.length_le (by simp)

theorem sound_bare (working : Place) : (bare working).Sound := sound_of_known nofun

/-- In a bare tree nothing is in the way of a file, unless a directory around the working directory is at
its place. -/
theorem free_bare {working : Place} (apart : ¬ (bare working).place path <+: working) :
    (bare working).Free path where
  around around _ _ := by
    rw [get?]
    split
    · exact .inr rfl
    · exact .inl rfl
  here := by
    have inside : ¬ (bare working).place path <+: (bare working).working := apart
    rw [get?_of_inside inside]
    intro same
    cases same

/-- A tree that is ready for a file: the directory around it is there, and no other is new but those
around it. -/
structure Ready (tree made : FileTree) (path : String) : Prop where
  sound : made.Sound
  adds : tree.AddsDirectories made
  within : ∀ place, made.get? place ≠ tree.get? place →
    place <+: tree.place path ∧ place ≠ tree.place path
  located : ∃ target, made.locate path = .ok target

/-- The directory of a file can be made where nothing is in the way. -/
theorem Sound.exists_prepare (sound : tree.Sound) (plain : IsPlain path) (ends : EndsIn path name)
    (free : tree.Free path) (written : Written) :
    ∃ made noted, tree.prepare written path = (made, noted, none) ∧ tree.Ready made path := by
  obtain ⟨outer, found, around, split⟩ := ends.exists_parent tree
  have passable := free.passable split
  have inward := around.isPlain plain
  by_cases empty : outer = ""
  · have nowhere : directoryOf? path = none := by simp [directoryOf?, found, empty]
    refine ⟨tree, written, by rw [prepare, nowhere], sound, .refl tree, fun _ changed => ?_, ?_⟩
    · exact absurd rfl changed
    · exact (locate_isOk_iff ends.isTrimmed around).2 (reaches_of_no_components (by rw [empty]; rfl))
  · have directory : directoryOf? path = some outer := by simp [directoryOf?, found, empty]
    have enough := Nat.lt_succ_of_le (Path.length_components_le outer)
    have made := sound.makeDirectories_ancestorsUpTo _ enough around.trimmed inward passable
    have making := making_makeDirectories tree (Path.ancestors outer)
    obtain ⟨also, adds⟩ := making.adds sound
    have reaches := making.reaches_ancestorsUpTo sound (Nat.succ_pos _) made
    have within (place : Place)
        (changed : (tree.makeDirectories (Path.ancestors outer)).1.get? place ≠ tree.get? place) :
        place <+: tree.place path ∧ place ≠ tree.place path := by
      obtain ⟨other, head, below⟩ := making.within sound (isAscent_ancestorsUpTo _ around.trimmed)
        (by rintro other ⟨⟩; exact inward) changed
      cases head
      rw [split]
      refine ⟨below.trans (List.prefix_append ..), ?_⟩
      rintro rfl
      exact absurd below.length_le (by simp)
    have whole : tree.makeDirectories (Path.ancestors outer) =
        ((tree.makeDirectories (Path.ancestors outer)).1, none) := Prod.ext rfl made
    refine ⟨_, { written with
      directories := written.directories ++ (tree.outermostMissing? outer).toList }, ?_, also, adds,
      within, (locate_isOk_iff ends.isTrimmed around).2 reaches⟩
    simp only [prepare, directory]
    rw [whole]

theorem Ready.get?_eq (ready : tree.Ready made path) :
    made.get? (tree.place path) = tree.get? (tree.place path) :=
  Classical.byContradiction fun changed => (ready.within _ changed).2 rfl

/-- Then the file can be written. -/
theorem Ready.exists_write (ready : tree.Ready made path) (ends : EndsIn path name)
    (free : tree.Free path) (content : List UInt8) :
    ∃ next, made.write path content = .ok next := by
  obtain ⟨target, found⟩ := ready.located
  have other : target.entry ≠ some .directory := by
    obtain ⟨place, stands⟩ := ready.sound.locate_eq_ok found
    rw [stands, place, place_eq ready.adds.working, ready.get?_eq]
    exact free.here
  have plain : target.slash = false := by
    obtain ⟨before, split⟩ := ends.components_eq
    rw [locate_eq_arrive split] at found
    cases walked : made.walk (made.start path) before with
    | error e =>
      rw [walked] at found
      cases found
    | ok around =>
      rw [walked] at found
      have same : made.arrive _ around name = target := Except.ok.inj found
      rw [arrive, if_neg ends.named.notDot, if_neg ends.named.notDots] at same
      rw [← same]
      simpa using ends.getLast?_ne
  simp only [write, found, plain, bind, Except.bind]
  cases stands : target.entry with
  | none => exact ⟨_, rfl⟩
  | some entry =>
    cases entry with
    | directory => exact absurd stands other
    | file old => exact ⟨_, rfl⟩

/-- No file is to stand in the place of a directory around another. -/
def Apart (tree : FileTree) (files : List OutputFile) : Prop :=
  ∀ file ∈ files, ∀ other ∈ files, tree.place file.path <+: tree.place other.path →
    tree.place file.path = tree.place other.path

/-- What is free for a file stays so when another is written. -/
theorem Free.step (free : tree.Free path) {other : String} (ready : tree.Ready made other)
    {content : List UInt8} (wrote : Wrote made other content later)
    (inside : tree.place other <+: tree.place path → tree.place other = tree.place path)
    (outside : tree.place path <+: tree.place other → tree.place path = tree.place other) :
    later.Free path where
  around around leading apart := by
    rw [place_eq wrote.working, place_eq ready.adds.working] at leading apart
    rw [wrote.get?, place_eq ready.adds.working, if_neg]
    · rcases ready.adds.cases around with same | ⟨_, directory⟩
      · rw [same]
        exact free.around around leading apart
      · exact .inr directory
    · rintro rfl
      exact apart (inside leading)
  here := by
    rw [wrote.get?, place_eq wrote.working, place_eq ready.adds.working]
    split
    · exact nofun
    · rename_i apart
      by_cases same : made.get? (tree.place path) = tree.get? (tree.place path)
      · rw [same]
        exact free.here
      · exact absurd (outside (ready.within _ same).1) apart

/-- Files are written one after the other if nothing is in the way of any of them. -/
theorem writeAll_of_free {files : List OutputFile} (sound : tree.Sound)
    (plain : ∀ file ∈ files, IsPlain file.path)
    (ends : ∀ file ∈ files, ∃ name, EndsIn file.path name)
    (free : ∀ file ∈ files, tree.Free file.path) (apart : tree.Apart files) (written : Written) :
    (tree.writeAll written files).2.2 = none := by
  -- Files are written from the first on, and what is free for the others stays so behind it.
  induction files generalizing tree written with
  | nil => rfl
  | cons file rest ih =>
    obtain ⟨name, last⟩ := ends file (List.mem_cons_self ..)
    have here := free file (List.mem_cons_self ..)
    obtain ⟨made, noted, prepares, ready⟩ :=
      sound.exists_prepare (plain file (List.mem_cons_self ..)) last here written
    obtain ⟨next, writes⟩ := ready.exists_write last here (Text.encode file.content)
    have wrote := ready.sound.wrote_of_write writes
    rw [writeAll, prepares]
    simp only [writes]
    have places : next.place = tree.place := place_eq (wrote.working.trans ready.adds.working)
    refine ih wrote.sound (fun other member => plain other (List.mem_cons_of_mem _ member))
      (fun other member => ends other (List.mem_cons_of_mem _ member)) ?_ ?_ _
    · intro other member
      have among := List.mem_cons_of_mem file member
      exact (free other among).step ready wrote
        (apart file (List.mem_cons_self ..) other among)
        (apart other among file (List.mem_cons_self ..))
    · intro one member other among
      rw [places]
      exact apart one (List.mem_cons_of_mem _ member) other (List.mem_cons_of_mem _ among)

/-- Files that are written stand in no directory's place, neither in that of one around another file nor
in that of the working directory or of one around it. -/
theorem apart_of_writeAll {files : List OutputFile} (sound : tree.Sound)
    (plain : ∀ file ∈ files, IsPlain file.path) {written noted : Written} {after : FileTree}
    (wrote : tree.writeAll written files = (after, noted, none)) :
    tree.Apart files ∧ ∀ file ∈ files, ¬ tree.place file.path <+: tree.working := by
  obtain ⟨alters, also⟩ := (Alters.outset tree).run sound plain wrote
  constructor
  · intro file member other among leading
    -- What is around the place of a file is a directory.
    refine Classical.byContradiction fun differ => ?_
    obtain ⟨content, here⟩ := alters.exists_file member
    obtain ⟨further, there⟩ := alters.exists_file among
    rw [also.directory_of_prefix there leading differ] at here
    cases here
  · intro file member around
    obtain ⟨content, here⟩ := alters.exists_file member
    rw [get?_of_isPrefix (alters.working ▸ around)] at here
    cases here

/-- Where nothing stands but the working directory, files can be written if and only if none of them is
to stand in the place of a directory, be it around another file or the working directory or around it. -/
theorem writeFiles_bare_eq_ok_iff {working : Place} {files : List OutputFile}
    (plain : ∀ file ∈ files, IsPlain file.path)
    (ends : ∀ file ∈ files, ∃ name, EndsIn file.path name) :
    ((bare working).writeFiles files).value.2 = .ok () ↔
      (bare working).Apart files ∧ ∀ file ∈ files, ¬ (bare working).place file.path <+: working := by
  have sound := sound_bare working
  constructor
  · intro wrote
    cases failure : ((bare working).writeAll ⟨[], []⟩ files).2.2 with
    | none => exact apart_of_writeAll sound plain (Prod.ext rfl (Prod.ext rfl failure))
    | some error =>
      rw [value_writeFiles_of_some failure] at wrote
      cases wrote
  · rintro ⟨apart, outside⟩
    have free (file : OutputFile) (member : file ∈ files) := free_bare (outside file member)
    exact value_writeFiles_of_none (writeAll_of_free sound plain ends free apart ⟨[], []⟩)

end FileTree

end RelaxDoc
