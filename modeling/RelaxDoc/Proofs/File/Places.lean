import RelaxDoc.File.Write
import RelaxDoc.Proofs.File.Components
import Mathlib.Data.List.Induction

/-! Places that paths lead to. A path that can be followed leads to the place that its components
say, and still does so after directories are added. -/
namespace RelaxDoc

namespace Path

/-- The place that a component leads to, whatever stands there. -/
def turn (here : Place) (component : String) : Place :=
  if component = "." then here
  else if component = ".." then FileTree.outward here
  else here ++ [component]

/-- A path that does not go outwards. -/
def IsPlain (path : String) : Prop := ".." ∉ components path

instance (path : String) : Decidable (IsPlain path) :=
  inferInstanceAs (Decidable (".." ∉ components path))

theorem foldl_turn_idle {components : List String} (idle : ∀ component ∈ components, component = ".")
    (here : Place) : components.foldl turn here = here := by
  induction components with
  | nil => rfl
  | cons component rest ih =>
    obtain ⟨rfl, tail⟩ := List.forall_mem_cons.1 idle
    exact ih tail

end Path

namespace FileTree

open RelaxDoc.Path (components turn)

/-- The place that a path leads to, whatever stands there and on the way. -/
def place (tree : FileTree) (path : String) : Place :=
  (components path).foldl turn (tree.start path)

variable {tree later : FileTree} {path : String} {here there place : Place}

/-- Everything stands in a directory. -/
def Sound (tree : FileTree) : Prop :=
  ∀ place name, tree.get? (place ++ [name]) ≠ none → tree.get? place = some .directory

/-- The directories of a tree are directories of another too. -/
structure Grows (tree later : FileTree) : Prop where
  working : later.working = tree.working
  directory : ∀ place, tree.get? place = some .directory → later.get? place = some .directory

theorem Grows.refl (tree : FileTree) : tree.Grows tree := ⟨rfl, fun _ directory => directory⟩

theorem Grows.trans {middle : FileTree} (one : tree.Grows middle) (other : middle.Grows later) :
    tree.Grows later where
  working := other.working.trans one.working
  directory place here := other.directory place (one.directory place here)

/-- Where a path starts and leads depends on the working directory only. -/
theorem start_eq (same : later.working = tree.working) : later.start = tree.start := by
  funext path
  rw [start, start, same]

theorem place_eq (same : later.working = tree.working) : later.place = tree.place := by
  funext path
  rw [FileTree.place, FileTree.place, start_eq same]

theorem start_prefix (tree : FileTree) (path : String) : tree.start path <+: tree.working := by
  rw [start]
  split
  · exact List.nil_prefix
  · exact List.prefix_rfl

theorem get?_of_isPrefix (around : here <+: tree.working) :
    tree.get? here = some .directory := by
  rw [get?, if_pos around]

theorem not_prefix_of_get? (other : tree.get? here ≠ some .directory) :
    ¬ here <+: tree.working := fun around => other (get?_of_isPrefix around)

theorem Sound.get?_outward (sound : tree.Sound)
    (directory : tree.get? here = some .directory) :
    tree.get? (outward here) = some .directory := by
  rcases List.eq_nil_or_concat here with rfl | ⟨around, name, rfl⟩
  · exact directory
  · rw [List.concat_eq_append] at directory ⊢
    rw [outward, List.dropLast_concat]
    exact sound around name (by simp [directory])

/-- It is enough to look around the entries. -/
theorem sound_of_known
    (around : ∀ entry ∈ tree.known, tree.get? entry.1.dropLast = some .directory) :
    tree.Sound := by
  intro place name found
  rw [get?] at found
  split at found
  · rename_i outside
    exact get?_of_isPrefix ((List.prefix_append ..).trans outside)
  · obtain ⟨entry, here⟩ := Option.ne_none_iff_exists'.1 found
    obtain ⟨before, after, split, _⟩ := List.lookup_eq_some_iff.1 here
    have known := around (place ++ [name], entry) (by simp [split])
    rwa [List.dropLast_concat] at known

/-- What is missing has nothing below it. -/
theorem Sound.get?_below (sound : tree.Sound) (missing : tree.get? here ≠ some .directory)
    {name : String} {more : Place} : tree.get? (here ++ name :: more) = none := by
  induction more using List.reverseRecOn with
  | nil =>
    refine Classical.byContradiction fun found => missing ?_
    exact sound here name found
  | append_singleton more last ih =>
    refine Classical.byContradiction fun found => ?_
    have directory := sound (here ++ name :: more) last (by simpa using found)
    rw [ih] at directory
    cases directory

theorem Sound.get?_eq_none_of_prefix (sound : tree.Sound) (missing : tree.get? here = none)
    (below : here <+: place) : tree.get? place = none := by
  obtain ⟨more, rfl⟩ := below
  cases more with
  | nil => rwa [List.append_nil]
  | cons name more => exact sound.get?_below (by simp [missing])

theorem enter_eq_ok_iff {component : String} : tree.enter here component = .ok there ↔
    there = turn here component ∧
      (component = "." ∨ component = ".." ∨ tree.get? (here ++ [component]) = some .directory) := by
  rw [enter, turn]
  by_cases dot : component = "."
  · simp [dot, eq_comm]
  by_cases dots : component = ".."
  · simp [dots, eq_comm]
  rw [if_neg dot, if_neg dots, if_neg dot, if_neg dots]
  cases found : tree.get? (here ++ [component]) with
  | none => simp [dot, dots]
  | some entry =>
    cases entry with
    | file content => simp [dot, dots]
    | directory => simp [eq_comm]

/-- The place that components lead to, if there are directories all along. -/
def walk (tree : FileTree) (here : Place) (components : List String) : Except IoError Place :=
  components.foldlM tree.enter here

theorem walk_nil : tree.walk here [] = .ok here := rfl

theorem walk_append (left right : List String) :
    tree.walk here (left ++ right) = tree.walk here left >>= fun there => tree.walk there right :=
  List.foldlM_append

theorem walk_singleton (component : String) : tree.walk here [component] = tree.enter here component := by
  rw [walk, List.foldlM_cons]
  cases tree.enter here component <;> rfl

theorem walk_concat_eq_ok_iff {before : List String} {last : String} :
    tree.walk here (before ++ [last]) = .ok there ↔
      ∃ around, tree.walk here before = .ok around ∧ tree.enter around last = .ok there := by
  rw [walk_append]
  cases tree.walk here before with
  | error e => simp [bind, Except.bind]
  | ok around => simp [bind, Except.bind, walk_singleton]

theorem walk_idle {components : List String} (idle : ∀ component ∈ components, component = ".") :
    tree.walk here components = .ok here := by
  induction components with
  | nil => rfl
  | cons component rest ih =>
    obtain ⟨rfl, tail⟩ := List.forall_mem_cons.1 idle
    rw [walk, List.foldlM_cons]
    exact ih tail

theorem place_of_walk {components : List String} (reached : tree.walk here components = .ok there) :
    there = components.foldl turn here := by
  induction components using List.reverseRecOn generalizing there with
  | nil =>
    cases reached
    rfl
  | append_singleton before last ih =>
    obtain ⟨around, earlier, entered⟩ := walk_concat_eq_ok_iff.1 reached
    rw [List.foldl_append, List.foldl_cons, List.foldl_nil, ← ih earlier]
    exact (enter_eq_ok_iff.1 entered).1

theorem Sound.directory_of_walk (sound : tree.Sound) (outset : tree.get? here = some .directory)
    {components : List String} (reached : tree.walk here components = .ok there) :
    tree.get? there = some .directory := by
  induction components using List.reverseRecOn generalizing there with
  | nil =>
    cases reached
    exact outset
  | append_singleton before last ih =>
    obtain ⟨around, earlier, entered⟩ := walk_concat_eq_ok_iff.1 reached
    have directory := ih earlier
    obtain ⟨rfl, way⟩ := enter_eq_ok_iff.1 entered
    rw [turn]
    split
    · exact directory
    · split
      · exact sound.get?_outward directory
      · rename_i name further
        exact (way.resolve_left name).resolve_left further

theorem Grows.walk (grows : tree.Grows later) {components : List String}
    (reached : tree.walk here components = .ok there) : later.walk here components = .ok there := by
  induction components using List.reverseRecOn generalizing there with
  | nil => exact reached
  | append_singleton before last ih =>
    obtain ⟨around, earlier, entered⟩ := walk_concat_eq_ok_iff.1 reached
    obtain ⟨same, way⟩ := enter_eq_ok_iff.1 entered
    refine walk_concat_eq_ok_iff.2 ⟨around, ih earlier, enter_eq_ok_iff.2 ⟨same, ?_⟩⟩
    exact way.imp_right (Or.imp_right (grows.directory _))

/-- Where the last component of a path leads from the directory that the others lead to. -/
def arrive (tree : FileTree) (slash : Bool) (here : Place) (last : String) : Target :=
  if last = "." then ⟨here, some .directory, true⟩
  else if last = ".." then ⟨outward here, some .directory, true⟩
  else ⟨here ++ [last], tree.get? (here ++ [last]), slash⟩

theorem locate_eq_arrive {before : List String} {last : String}
    (split : components path = before ++ [last]) : tree.locate path =
      (tree.walk (tree.start path) before).map fun here =>
        tree.arrive (path.toList.getLast? = some '/') here last := by
  have filled : path ≠ "" := by
    rintro rfl
    simp [components, Path.filled, Path.written, Text.split] at split
  simp only [locate, split, if_neg filled, List.getLast?_concat, List.dropLast_concat]
  change (tree.walk (tree.start path) before >>= _) = _
  cases tree.walk (tree.start path) before with
  | error e => rfl
  | ok here =>
    simp only [bind, Except.bind, Except.map, arrive]
    split
    · rfl
    · split <;> rfl

theorem locate_of_no_components (none : components path = []) (filled : path ≠ "") :
    tree.locate path = .ok ⟨tree.start path, some .directory, true⟩ := by
  simp only [locate, none, if_neg filled, List.getLast?_nil]

/-- A path that can be followed leads to the place it starts from or to what its last component says
there. -/
theorem locate_cases {target : Target} (found : tree.locate path = .ok target) :
    (components path = [] ∧ path ≠ "" ∧ target = ⟨tree.start path, some .directory, true⟩) ∨
      ∃ before last here, components path = before ++ [last] ∧
        tree.walk (tree.start path) before = .ok here ∧
        target = tree.arrive (path.toList.getLast? = some '/') here last := by
  rcases List.eq_nil_or_concat (components path) with none | ⟨before, last, split⟩
  · have filled : path ≠ "" := by
      rintro rfl
      cases found
    rw [locate_of_no_components none filled] at found
    exact .inl ⟨none, filled, (Except.ok.inj found).symm⟩
  · rw [List.concat_eq_append] at split
    rw [locate_eq_arrive split] at found
    cases walked : tree.walk (tree.start path) before with
    | error e =>
      rw [walked] at found
      cases found
    | ok here =>
      rw [walked] at found
      exact .inr ⟨before, last, here, split, walked, (Except.ok.inj found).symm⟩

theorem Sound.directory_of_start (sound : tree.Sound) {before : List String}
    (walked : tree.walk (tree.start path) before = .ok here) : tree.get? here = some .directory :=
  sound.directory_of_walk (get?_of_isPrefix (tree.start_prefix path)) walked

/-- What is said to stand at the end of a path stands at its place. -/
theorem Sound.locate_eq_ok (sound : tree.Sound) {target : Target}
    (found : tree.locate path = .ok target) :
    target.place = tree.place path ∧ target.entry = tree.get? target.place := by
  rcases locate_cases found with ⟨none, _, rfl⟩ | ⟨before, last, here, split, walked, rfl⟩
  · refine ⟨?_, (get?_of_isPrefix (tree.start_prefix path)).symm⟩
    rw [FileTree.place, none, List.foldl_nil]
  · have directory := sound.directory_of_start walked
    have place : tree.place path = turn here last := by
      rw [FileTree.place, split, List.foldl_append, ← place_of_walk walked, List.foldl_cons,
        List.foldl_nil]
    rw [place, arrive, turn]
    split
    · exact ⟨rfl, directory.symm⟩
    · split
      · exact ⟨rfl, (sound.get?_outward directory).symm⟩
      · exact ⟨rfl, rfl⟩

theorem Sound.get?_of_locate (sound : tree.Sound) {entry : Option Entry} {slash : Bool}
    (found : tree.locate path = .ok ⟨place, entry, slash⟩) :
    place = tree.place path ∧ tree.get? place = entry :=
  ⟨(sound.locate_eq_ok found).1, (sound.locate_eq_ok found).2.symm⟩

/-- A path still leads to its place after directories are added. -/
theorem Grows.locate (grows : tree.Grows later) (sound : later.Sound) {target : Target}
    (found : tree.locate path = .ok target) :
    later.locate path = .ok { target with entry := later.get? target.place } := by
  rcases locate_cases found with ⟨none, filled, rfl⟩ | ⟨before, last, here, split, walked, rfl⟩
  · rw [locate_of_no_components none filled, start_eq grows.working,
      get?_of_isPrefix (start_eq grows.working ▸ later.start_prefix path)]
  · have still := grows.walk walked
    rw [← start_eq grows.working] at still
    have directory := sound.directory_of_start still
    rw [locate_eq_arrive split, still]
    simp only [Except.map, arrive]
    split
    · rw [directory]
    · split
      · rw [sound.get?_outward directory]
      · rfl

/-- All components of a path lead to directories. -/
def Reaches (tree : FileTree) (path : String) : Prop :=
  ∃ there, tree.walk (tree.start path) (components path) = .ok there

theorem reaches_concat_iff {before : List String} {last : String}
    (split : components path = before ++ [last]) : tree.Reaches path ↔
      ∃ here, tree.walk (tree.start path) before = .ok here ∧
        (tree.arrive (path.toList.getLast? = some '/') here last).entry = some .directory := by
  have enters (here : Place) : (∃ there, tree.enter here last = .ok there) ↔
      (tree.arrive (path.toList.getLast? = some '/') here last).entry = some .directory := by
    simp only [enter_eq_ok_iff, arrive]
    by_cases dot : last = "."
    · simp [dot]
    · by_cases dots : last = ".." <;> simp [dot, dots]
  simp only [Reaches, split, walk_concat_eq_ok_iff, ← enters]
  constructor
  · intro ⟨there, here, walked, entered⟩
    exact ⟨here, walked, there, entered⟩
  · intro ⟨here, walked, there, entered⟩
    exact ⟨there, here, walked, entered⟩

theorem reaches_of_no_components (none : components path = []) : tree.Reaches path :=
  ⟨tree.start path, by rw [none, walk_nil]⟩

theorem stat_of_locate {target : Target} (found : tree.locate path = .ok target) :
    tree.stat path = .ok .directory ↔ target.entry = some .directory := by
  obtain ⟨place, entry, slash⟩ := target
  simp only [stat, found, bind, Except.bind]
  cases entry with
  | none => simp [throw, throwThe, MonadExceptOf.throw]
  | some entry =>
    cases entry with
    | directory => simp [pure, Except.pure]
    | file content => cases slash <;> simp [pure, Except.pure, throw, throwThe, MonadExceptOf.throw]

theorem hasDirectory_iff : tree.hasDirectory path = true ↔
    ∃ target, tree.locate path = .ok target ∧ target.entry = some .directory := by
  rw [hasDirectory]
  cases found : tree.locate path with
  | error e => simp [stat, found, bind, Except.bind]
  | ok target =>
    have reads := stat_of_locate found
    simp only [Except.ok.injEq, exists_eq_left', ← reads]
    split
    · rename_i same
      simp [same]
    · rename_i other
      simpa using other

/-- A path has a directory exactly if all its components lead to directories. -/
theorem hasDirectory_iff_reaches (filled : path ≠ "") :
    tree.hasDirectory path = true ↔ tree.Reaches path := by
  rw [hasDirectory_iff]
  rcases List.eq_nil_or_concat (components path) with none | ⟨before, last, split⟩
  · simp [locate_of_no_components none filled, reaches_of_no_components none]
  · rw [List.concat_eq_append] at split
    rw [reaches_concat_iff split, locate_eq_arrive split]
    cases tree.walk (tree.start path) before <;> simp [Except.map]

theorem Sound.get?_of_reaches (sound : tree.Sound) (reaches : tree.Reaches path) :
    tree.get? (tree.place path) = some .directory := by
  obtain ⟨there, walked⟩ := reaches
  have same := place_of_walk walked
  rw [FileTree.place, ← same]
  exact sound.directory_of_start walked

theorem Sound.walk_of_plain (sound : tree.Sound) {components : List String}
    (plain : ".." ∉ components)
    (directory : tree.get? (components.foldl turn here) = some .directory) :
    tree.walk here components = .ok (components.foldl turn here) := by
  induction components using List.reverseRecOn with
  | nil => rfl
  | append_singleton before last ih =>
    have inward : last ≠ ".." := fun same => plain (by simp [same])
    have start : ".." ∉ before := fun member => plain (List.mem_append_left _ member)
    rw [List.foldl_append, List.foldl_cons, List.foldl_nil] at directory ⊢
    by_cases dot : last = "."
    · have same : turn (before.foldl turn here) last = before.foldl turn here := if_pos dot
      rw [same] at directory
      exact walk_concat_eq_ok_iff.2 ⟨_, ih start directory, enter_eq_ok_iff.2 ⟨rfl, .inl dot⟩⟩
    · have same : turn (before.foldl turn here) last = before.foldl turn here ++ [last] := by
        rw [turn, if_neg dot, if_neg inward]
      rw [same] at directory
      have around := sound (before.foldl turn here) last (by simp [directory])
      refine walk_concat_eq_ok_iff.2 ⟨_, ih start around, enter_eq_ok_iff.2 ⟨rfl, ?_⟩⟩
      exact .inr (.inr directory)

/-- Without steps outwards a place can be reached if there is a directory. -/
theorem Sound.reaches_of_plain (sound : tree.Sound) (plain : Path.IsPlain path)
    (directory : tree.get? (tree.place path) = some .directory) : tree.Reaches path :=
  ⟨_, sound.walk_of_plain plain directory⟩

end FileTree

end RelaxDoc
