import RelaxDoc.Proofs.File.Directories

/-! The outermost of the directories that are made for a file, which is the one that is noted. Without
steps outwards the others are made in it. -/
namespace RelaxDoc.FileTree

open RelaxDoc.Path (IsTrimmed IsAround IsPlain)

variable {tree made around : FileTree} {path outer : String} {paths : List String}
  {failure : Option IoError}

/-- The outermost of the directories that were made on the way to `path`. -/
structure IsOutermost (tree made : FileTree) (path outermost : String) : Prop where
  located : ∃ slash, tree.locate outermost = .ok ⟨tree.place outermost, none, slash⟩
  directory : made.get? (tree.place outermost) = some .directory
  around : IsPlain path → tree.place outermost <+: tree.place path
  below : IsPlain path → ∀ place, made.get? place ≠ tree.get? place →
    tree.place outermost <+: place

theorem has_eq_false_of_error {error : IoError} (fails : tree.locate path = .error error) :
    tree.has path = false := by
  simp [has, stat, fails, bind, Except.bind]

theorem has_eq_false_of_none {target : Target} (found : tree.locate path = .ok target)
    (none : target.entry = none) : tree.has path = false := by
  simp [has, stat, found, none, bind, Except.bind, throw, throwThe, MonadExceptOf.throw]

theorem has_of_hasDirectory (present : tree.hasDirectory path = true) : tree.has path = true := by
  rw [hasDirectory] at present
  rw [has]
  split at present
  · rename_i found
    rw [found]
  · cases present

/-- A path that is missing, of those around a file. -/
def isMissing (tree : FileTree) (path : String) : Bool := path ≠ "" && !tree.has path

theorem isMissing_of_reaches (reaches : tree.Reaches path) : tree.isMissing path = false := by
  by_cases empty : path = ""
  · simp [isMissing, empty]
  · have present := has_of_hasDirectory ((hasDirectory_iff_reaches empty).2 reaches)
    simp [isMissing, present]

theorem isMissing_of_not_has (filled : path ≠ "") (absent : tree.has path = false) :
    tree.isMissing path = true := by
  simp [isMissing, filled, absent]

theorem IsAscent.takeWhile_eq_nil (ascent : IsAscent (path :: paths)) {target : Target}
    (found : tree.locate path = .ok target) : paths.takeWhile tree.isMissing = [] := by
  cases paths with
  | nil => rfl
  | cons outer rest =>
    obtain ⟨trimmed, above⟩ := (List.isChain_cons_cons.1 ascent).1
    have reaches := (locate_isOk_iff trimmed above).1 ⟨target, found⟩
    rw [List.takeWhile_cons, isMissing_of_reaches reaches]
    rfl

theorem has_of_missing (missing : tree.makeDirectory path = .error .notFound) :
    tree.has path = false := by
  cases found : tree.locate path with
  | error e => exact has_eq_false_of_error found
  | ok target => exact absurd found (locate_of_missing missing target)

theorem IsOutermost.of_made (new : Made tree path made) :
    tree.IsOutermost made path path := by
  refine ⟨new.located, new.directory, fun _ => List.prefix_refl _, fun _ place changed => ?_⟩
  rw [new.get?] at changed
  split at changed
  · rename_i same
    exact ⟨[], by rw [List.append_nil, same]⟩
  · exact absurd rfl changed

theorem IsOutermost.further {outermost : String} (out : tree.IsOutermost around outer outermost)
    (above : IsAround outer path) (grows : around.Grows made)
    (within : ∀ place, made.get? place ≠ around.get? place → place = tree.place path) :
    tree.IsOutermost made path outermost := by
  have inside (plain : IsPlain path) : tree.place outermost <+: tree.place path :=
    (out.around (above.isPlain plain)).trans (above.prefix_place plain)
  refine ⟨out.located, grows.directory _ out.directory, inside, fun plain place changed => ?_⟩
  by_cases before : around.get? place = tree.get? place
  · rw [within place (before ▸ changed)]
    exact inside plain
  · exact out.below (above.isPlain plain) place before

/-- The outermost path that was missing is still that of the paths around one more that was. -/
theorem exists_outermost_cons {outermost : String} (absent : tree.isMissing path = true)
    (last : (paths.takeWhile tree.isMissing).getLast? = some outermost) :
    ((path :: paths).takeWhile tree.isMissing).getLast? = some outermost ∧
      ∃ outer rest, paths = outer :: rest := by
  rw [List.takeWhile_cons, absent, if_pos rfl, List.getLast?_cons, last]
  cases paths with
  | nil => cases last
  | cons outer rest => exact ⟨rfl, outer, rest, rfl⟩

/-- Either nothing was missing and nothing was made, or the outermost path that was missing is the
outermost directory that was made. -/
theorem Making.outermost (sound : tree.Sound) (making : Making tree paths made failure)
    (succeeds : failure = none) (ascent : IsAscent paths) :
    (paths.takeWhile tree.isMissing = [] ∧ made = tree) ∨
      ∃ outermost, (paths.takeWhile tree.isMissing).getLast? = some outermost ∧
        ∀ path ∈ paths.head?, tree.IsOutermost made path outermost := by
  induction making with
  | failed | refused | blocked => cases succeeds
  | nil => exact .inl ⟨rfl, rfl⟩
  | here => exact .inl ⟨rfl, rfl⟩
  | present filled present =>
    left
    have reaches := (hasDirectory_iff_reaches filled).1 present
    rw [List.takeWhile_cons, isMissing_of_reaches reaches]
    exact ⟨rfl, rfl⟩
  | @made path outer made filled makes =>
    right
    have new := sound.made_of_makeDirectory makes
    obtain ⟨slash, found⟩ := new.located
    have absent := isMissing_of_not_has filled (has_eq_false_of_none found rfl)
    refine ⟨path, ?_, fun other head => ?_⟩
    · rw [List.takeWhile_cons, absent, if_pos rfl, ascent.takeWhile_eq_nil found]
      rfl
    · cases head
      exact .of_made new
  | @further path outer around made filled missing making makes ih =>
    right
    have absent := isMissing_of_not_has filled (has_of_missing missing)
    rcases ih rfl ascent.tail with ⟨_, same⟩ | ⟨outermost, last, out⟩
    · rw [same, missing] at makes
      cases makes
    · obtain ⟨also, rest⟩ := exists_outermost_cons absent last
      refine ⟨outermost, also, fun other head => ?_⟩
      cases head
      obtain ⟨outer, rest, rfl⟩ := rest
      have inner := (making.adds sound).1
      have new := inner.made_of_makeDirectory makes
      refine (out outer rfl).further (List.isChain_cons_cons.1 ascent).1.2 (new.adds inner).grows ?_
      intro place changed
      rw [new.get?, place_eq (making.adds sound).2.working] at changed
      exact Classical.byContradiction fun apart => changed (if_neg apart)
  | @found path outer around filled missing making present ih =>
    right
    have absent := isMissing_of_not_has filled (has_of_missing missing)
    rcases ih rfl ascent.tail with ⟨_, same⟩ | ⟨outermost, last, out⟩
    · rw [same] at present
      rw [isMissing_of_reaches ((hasDirectory_iff_reaches filled).1 present)] at absent
      cases absent
    · obtain ⟨also, rest⟩ := exists_outermost_cons absent last
      refine ⟨outermost, also, fun other head => ?_⟩
      cases head
      obtain ⟨outer, rest, rfl⟩ := rest
      exact (out outer rfl).further (List.isChain_cons_cons.1 ascent).1.2 (.refl around)
        fun place changed => absurd rfl changed

theorem isAscent_ancestorsUpTo (bound : Nat) (trimmed : IsTrimmed path) :
    IsAscent (Path.ancestorsUpTo bound path) := by
  induction bound generalizing path with
  | zero => exact .nil
  | succ bound ih =>
    rw [Path.ancestorsUpTo]
    cases found : Path.parent? path with
    | none => exact .singleton _
    | some outer =>
      have above := Path.isAround_of_parent? found
      have rest := ih above.trimmed
      cases bound with
      | zero => exact .singleton _
      | succ bound => exact .cons_cons ⟨trimmed, above⟩ rest

/-- What becomes of a tree when the directory of a file is made, and what is noted of it. -/
inductive Prepares (tree : FileTree) (written : Written) (path : String) :
    FileTree → Written → Option IoError → Prop where
  | nothing : Prepares tree written path tree written none
  | made {made : FileTree} {directory outermost : String} (sound : made.Sound)
      (adds : tree.AddsDirectories made) (plain : IsPlain path → IsPlain directory)
      (out : tree.IsOutermost made directory outermost) : Prepares tree written path made
        { written with directories := written.directories ++ [outermost] } none
  | failed {made : FileTree} {error : IoError} (sound : made.Sound)
      (adds : tree.AddsDirectories made) (unchanged : IsPlain path → made = tree) :
      Prepares tree written path made written (some error)

theorem prepares_prepare (sound : tree.Sound) (written : Written) (path : String) :
    Prepares tree written path (tree.prepare written path).1 (tree.prepare written path).2.1
      (tree.prepare written path).2.2 := by
  cases around : directoryOf? path with
  | none =>
    simp only [prepare, around]
    exact .nothing
  | some directory =>
    have above := Path.isAround_of_parent? (Option.filter_eq_some_iff.1 around).1
    have ascent : IsAscent (Path.ancestors directory) := isAscent_ancestorsUpTo _ above.trimmed
    have making := making_makeDirectories tree (Path.ancestors directory)
    obtain ⟨also, adds⟩ := making.adds sound
    have first : (Path.ancestors directory).head? = some directory := rfl
    have noted : tree.outermostMissing? directory =
      ((Path.ancestors directory).takeWhile tree.isMissing).getLast? := rfl
    simp only [prepare, around, noted]
    generalize tree.makeDirectories (Path.ancestors directory) = result at making also adds ⊢
    obtain ⟨made, failure⟩ := result
    cases failure with
    | some error =>
      refine .failed also adds fun plain => making.eq_of_failure sound nofun ascent ?_
      intro other head
      cases first.symm.trans head
      exact above.isPlain plain
    | none =>
      rcases making.outermost sound rfl ascent with ⟨none, same⟩ | ⟨outermost, last, out⟩
      · simp only at same
        rw [none, same]
        simpa using Prepares.nothing
      · rw [last]
        exact .made also adds above.isPlain (out directory first)

end RelaxDoc.FileTree
