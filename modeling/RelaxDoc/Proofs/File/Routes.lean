import RelaxDoc.Proofs.File.Places

/-! Paths that are put together, and where relative links lead. The components of a joined path are those
of the two paths in a row, so a link to a path next to another one leads there. -/
namespace RelaxDoc

namespace Path

variable {path further name : String}

/-- The components of a path in order, behind the root if it is absolute. -/
def route (path : String) : Place := (if isAbsolute path then ["/"] else []) ++ components path

/-- A name that stands for what is called so in a directory. -/
structure IsName (name : String) : Prop where
  filled : name ≠ ""
  clean : '/' ∉ name.toList
  notDot : name ≠ "."
  notDots : name ≠ ".."

theorem IsName.isAbsolute (named : IsName name) : isAbsolute name = false := by
  rw [Path.isAbsolute, beq_eq_false_iff_ne]
  exact fun first => named.clean (List.mem_of_mem_head? first)

theorem IsName.components (named : IsName name) : components name = [name] := by
  have some : name.toList ≠ [] := fun empty => named.filled (String.toList_eq_nil_iff.1 empty)
  rw [Path.components, written, Text.split_of_clean named.clean, Path.filled]
  simp [some]

theorem written_append_slash (left right : List Char) :
    written (left ++ '/' :: right) = written left ++ written right := Text.split_append_mark left right

/-- A joined path is written with the components of the two in a row. -/
theorem exists_written_join (path : String) (relative : isAbsolute further = false) :
    ∃ front, written (join path further).toList = front ++ written further.toList ∧
      filled front = components path := by
  rw [join, relative, Bool.false_or]
  by_cases empty : path = ""
  · rw [if_pos (by simpa using empty), empty]
    exact ⟨[], rfl, rfl⟩
  · rw [if_neg (by simpa using empty)]
    split
    · -- The path ends in the slash already.
      rename_i last
      obtain ⟨front, split⟩ := List.getLast?_eq_some_iff.1 last
      refine ⟨written front, ?_, ?_⟩
      · rw [String.toList_append, split, List.append_assoc, List.singleton_append,
          written_append_slash]
      · rw [components, split, written_append_slash, filled_append]
        exact (List.append_nil _).symm
    · have slash : "/".toList = ['/'] := rfl
      refine ⟨written path.toList, ?_, rfl⟩
      rw [String.toList_append, String.toList_append, slash, List.append_assoc,
        List.singleton_append, written_append_slash]

theorem components_join (relative : isAbsolute further = false) :
    components (join path further) = components path ++ components further := by
  obtain ⟨front, order, before⟩ := exists_written_join path relative
  rw [components, order, filled_append, before]
  rfl

theorem isAbsolute_append (some : path ≠ "") (rest : String) :
    isAbsolute (path ++ rest) = isAbsolute path := by
  obtain ⟨c, cs, split⟩ := List.exists_cons_of_ne_nil (mt String.toList_eq_nil_iff.1 some)
  rw [isAbsolute, isAbsolute, String.toList_append, split]
  rfl

theorem isAbsolute_join (relative : isAbsolute further = false) :
    isAbsolute (join path further) = isAbsolute path := by
  rw [join, relative, Bool.false_or]
  by_cases empty : path = ""
  · rw [if_pos (by simpa using empty), relative, empty]
    rfl
  · rw [if_neg (by simpa using empty)]
    split
    · exact isAbsolute_append empty _
    · rw [String.append_assoc, isAbsolute_append empty]

theorem route_join (relative : isAbsolute further = false) :
    route (join path further) = route path ++ components further := by
  rw [route, isAbsolute_join relative, components_join relative, ← List.append_assoc]
  rfl

theorem route_join_name (named : IsName name) : route (join path name) = route path ++ [name] := by
  rw [route_join named.isAbsolute, named.components]

/-- A path whose last written component is a name. -/
structure EndsIn (path name : String) : Prop where
  named : IsName name
  last : ∃ front, written path.toList = front ++ [name.toList]

theorem endsIn_join (path : String) (named : IsName name) : EndsIn (join path name) name := by
  obtain ⟨front, order, _⟩ := exists_written_join path named.isAbsolute
  refine ⟨named, front, ?_⟩
  rw [order, written, Text.split_of_clean named.clean]

namespace EndsIn

variable (ends : EndsIn path name)

include ends

/-- Nothing is left out at the end of the path. -/
theorem active_eq : active path = (written path.toList).reverse := by
  obtain ⟨named, front, order⟩ := ends
  have content : name.toList ≠ [] := fun empty => named.filled (String.toList_eq_nil_iff.1 empty)
  have idle : isIdle name.toList = false := by
    simp only [isIdle, Bool.or_eq_false_iff, beq_eq_false_iff_ne]
    exact ⟨content, fun dot => named.notDot (String.toList_inj.1 dot)⟩
  rw [active, order, List.reverse_append, List.reverse_singleton, List.singleton_append]
  cases rest : front.reverse with
  | nil =>
    -- An absolute path is written with an empty component first.
    have relative : isAbsolute path = false := by
      rw [List.reverse_eq_nil_iff.1 rest] at order
      refine Bool.eq_false_iff.2 fun absolute => content ?_
      have first := (head?_written_eq_nil_iff path).2 (.inr absolute)
      rw [order] at first
      exact Option.some.inj first
    rw [dropIdle, relative]
    simp [content]
  | cons next before =>
    rw [dropIdle]
    · simp [idle]
    · intro alone
      cases alone

theorem isTrimmed : IsTrimmed path := .inl ends.active_eq

theorem components_eq : ∃ before, components path = before ++ [name] := by
  obtain ⟨named, front, order⟩ := ends
  refine ⟨filled front, ?_⟩
  have alone := named.components
  rw [components, written, Text.split_of_clean named.clean] at alone
  rw [components, order, filled_append, alone]

/-- A name stands in the directory around it. -/
theorem exists_parent (tree : FileTree) : ∃ outer, parent? path = some outer ∧
    IsAround outer path ∧ tree.place path = tree.place outer ++ [name] := by
  obtain ⟨front, order⟩ := ends.last
  have active := ends.active_eq
  rw [order, List.reverse_append, List.reverse_singleton, List.singleton_append] at active
  obtain ⟨outer, found⟩ : ∃ outer, parent? path = some outer := by
    rw [parent?, active]
    exact ⟨_, rfl⟩
  have around := isAround_of_parent? found
  refine ⟨outer, found, around, ?_⟩
  obtain ⟨between, last, after, split, dots, _, whole⟩ := around.components
  obtain ⟨before, parts⟩ := ends.components_eq
  rw [whole ends.isTrimmed, ← List.append_assoc] at split
  obtain rfl : name = last := List.singleton_inj.1 (List.append_inj' (parts.symm.trans split) rfl).2
  have same : tree.place path = turn (tree.place outer) name := by
    rw [FileTree.place, split, List.foldl_append, List.foldl_append, List.foldl_cons, List.foldl_nil,
      foldl_turn_idle dots, FileTree.place, FileTree.start, FileTree.start, around.absolute]
  rw [same, turn, if_neg ends.named.notDot, if_neg ends.named.notDots]

/-- The path has no slash at its end. -/
theorem getLast?_ne : path.toList.getLast? ≠ some '/' := by
  intro last
  obtain ⟨front, split⟩ := List.getLast?_eq_some_iff.1 last
  obtain ⟨named, before, order⟩ := ends
  rw [split, written_append_slash] at order
  have empty := List.singleton_inj.1 (List.append_inj' order rfl).2
  exact named.filled (String.toList_eq_nil_iff.1 empty.symm)

end EndsIn

theorem isName_of_fileName? (found : fileName? path = some name) : IsName name := by
  rw [fileName?] at found
  split at found
  · cases found
  rename_i last before order
  split at found
  · cases found
  rename_i other
  cases found
  simp only [Bool.or_eq_true, beq_iff_eq, not_or] at other
  have among : last ∈ written path.toList := by
    obtain ⟨idle, parts, _⟩ :=
      exists_idle (isAbsolute path) (getLast?_of_absolute path [] (List.nil_append _).symm)
    have here : last ∈ active path := by
      rw [order]
      exact List.mem_cons_self ..
    rw [← List.mem_reverse, parts]
    exact List.mem_append_right _ here
  refine ⟨?_, ?_, ?_, ?_⟩
  · exact fun empty => ne_nil_of_dropIdle order (String.ofList_eq_empty_iff.1 empty)
  · rw [String.toList_ofList]
    exact Text.not_mem_split among
  · exact fun dot => other.1 (by rw [← String.toList_ofList (l := last), dot]; rfl)
  · exact fun dots => other.2 (by rw [← String.toList_ofList (l := last), dots]; rfl)

theorem place_join_name (tree : FileTree) (path : String) (named : IsName name) :
    tree.place (join path name) = tree.place path ++ [name] := by
  rw [FileTree.place, components_join named.isAbsolute, named.components, List.foldl_append,
    List.foldl_cons, List.foldl_nil, FileTree.start, isAbsolute_join named.isAbsolute, turn,
    if_neg named.notDot, if_neg named.notDots]
  rfl

theorem isPlain_join (plain : IsPlain path) (named : IsName name) : IsPlain (join path name) := by
  rw [IsPlain, components_join named.isAbsolute, named.components, List.mem_append, not_or,
    List.mem_singleton]
  exact ⟨plain, Ne.symm named.notDots⟩

/-- The directory around one, by the components that lead there. -/
def leave (here : Place) : Place :=
  match here.getLast? with
  | none => [".."]
  | some "/" => here
  | some "." | some ".." => here ++ [".."]
  | some _ => here.dropLast

/-- Where a component of a link leads from a directory. -/
def follow (here : Place) (component : String) : Place :=
  if component = "." then here
  else if component = ".." then leave here
  else here ++ [component]

/-- Where a relative link in a file leads. -/
def linked? (file link : String) : Option Place :=
  if isAbsolute link then none else some ((components link).foldl follow (route file).dropLast)

theorem leave_concat (here : Place) (named : IsName name) : leave (here ++ [name]) = here := by
  have clean : name ≠ "/" := by
    rintro rfl
    exact absurd (by decide) named.clean
  unfold leave
  rw [List.getLast?_concat]
  split
  · rename_i none
    cases none
  · rename_i same
    exact absurd (Option.some.inj same) clean
  · rename_i same
    exact absurd (Option.some.inj same) named.notDot
  · rename_i same
    exact absurd (Option.some.inj same) named.notDots
  · exact List.dropLast_concat

theorem follow_name (here : Place) (named : IsName name) : follow here name = here ++ [name] := by
  rw [follow, if_neg named.notDot, if_neg named.notDots]

variable {directory file other : String}

/-- A name in a link leads to a file in the same directory. -/
theorem linked?_name (inFile : IsName file) (named : IsName name) :
    linked? (join directory file) name = some (route (join directory name)) := by
  rw [linked?, named.isAbsolute, if_neg Bool.false_ne_true, named.components,
    route_join_name inFile, route_join_name named, List.dropLast_concat, List.foldl_cons,
    follow_name _ named, List.foldl_nil]

/-- Two names lead into a directory there. -/
theorem linked?_inner (inFile : IsName file) (inner : IsName other) (named : IsName name) :
    linked? (join directory file) (other ++ "/" ++ name) =
      some (route (join (join directory other) name)) := by
  have relative : isAbsolute (other ++ "/" ++ name) = false := by
    rw [String.append_assoc, isAbsolute_append inner.filled, inner.isAbsolute]
  have parts : components (other ++ "/" ++ name) = [other, name] := by
    have slash : "/".toList = ['/'] := rfl
    rw [components, String.toList_append, String.toList_append, slash, List.append_assoc,
      List.singleton_append, written_append_slash, filled_append]
    exact congrArg₂ (· ++ ·) inner.components named.components
  rw [linked?, relative, if_neg Bool.false_ne_true, parts, route_join_name inFile,
    route_join_name named, route_join_name inner, List.dropLast_concat, List.foldl_cons,
    follow_name _ inner, List.foldl_cons, follow_name _ named, List.foldl_nil]

/-- Double dots and a name lead to a file next to the directory. -/
theorem linked?_outer (inFile : IsName file) (inner : IsName other) (named : IsName name) :
    linked? (join (join directory other) file) ("../" ++ name) =
      some (route (join directory name)) := by
  have parts : components ("../" ++ name) = ["..", name] := by
    have dots : "../".toList = ['.', '.'] ++ ['/'] := rfl
    rw [components, String.toList_append, dots, List.append_assoc, List.singleton_append,
      written_append_slash, filled_append]
    exact congrArg (".." :: ·) named.components
  have relative : isAbsolute ("../" ++ name) = false := by
    rw [isAbsolute, String.toList_append]
    rfl
  rw [linked?, relative, if_neg Bool.false_ne_true, parts, route_join_name inFile,
    route_join_name inner, route_join_name named, List.dropLast_concat, List.foldl_cons,
    List.foldl_cons, List.foldl_nil, follow_name _ named]
  exact congrArg (fun here => some (here ++ [name])) (leave_concat _ inner)

end Path

end RelaxDoc
