import RelaxDoc.Proofs.File.Places

/-! What stands at the places of a tree after an entry is put in or taken out, and that everything
still stands in a directory. -/
namespace RelaxDoc

theorem lookup_filter {α β : Type} [BEq α] [LawfulBEq α] (kept : α → Bool)
    (entries : List (α × β)) (key : α) : (entries.filter fun entry => kept entry.1).lookup key =
      if kept key then entries.lookup key else none := by
  induction entries with
  | nil => simp
  | cons entry rest ih =>
    obtain ⟨first, second⟩ := entry
    rw [List.filter_cons, List.lookup_cons]
    cases same : key == first with
    | true =>
      rw [eq_of_beq same] at ih ⊢
      by_cases stays : kept first = true
      · simp [stays]
      · simpa [stays] using ih
    | false =>
      by_cases stays : kept first = true
      · simp [stays, List.lookup_cons, same, ih]
      · simp [stays, ih]

namespace FileTree

variable {tree : FileTree} {here place other : Place} {name : String} {entry : Entry}

theorem get?_of_inside (inside : ¬ place <+: tree.working) :
    tree.get? place = tree.known.lookup place := by
  rw [get?, if_neg inside]

theorem lookup_erase : (tree.erase place).known.lookup other =
    if other = place then none else tree.known.lookup other := by
  have kept := lookup_filter (fun position => decide (position ≠ place)) tree.known other
  rw [erase, kept]
  by_cases same : other = place <;> simp [same]

theorem get?_erase (inside : ¬ place <+: tree.working) :
    (tree.erase place).get? other = if other = place then none else tree.get? other := by
  by_cases around : other <+: tree.working
  · have still : (tree.erase place).get? other = some .directory := get?_of_isPrefix around
    have apart : other ≠ place := fun same => inside (same ▸ around)
    rw [still, if_neg apart, get?_of_isPrefix around]
  · have found : (tree.erase place).get? other = (tree.erase place).known.lookup other :=
      get?_of_inside around
    rw [found, get?_of_inside around, lookup_erase]

theorem get?_insert (inside : ¬ place <+: tree.working) :
    (tree.insert place entry).get? other =
      if other = place then some entry else tree.get? other := by
  by_cases around : other <+: tree.working
  · have still : (tree.insert place entry).get? other = some .directory := get?_of_isPrefix around
    have apart : other ≠ place := fun same => inside (same ▸ around)
    rw [still, if_neg apart, get?_of_isPrefix around]
  · have found : (tree.insert place entry).get? other =
      (tree.insert place entry).known.lookup other := get?_of_inside around
    rw [found, get?_of_inside around, insert, List.lookup_append, lookup_erase, List.lookup_cons,
      List.lookup_nil]
    by_cases same : other = place
    · simp [same]
    · simp [same, beq_eq_false_iff_ne.2 same]

theorem get?_eraseBelow (inside : ¬ place <+: tree.working) :
    (tree.eraseBelow place).get? other =
      if place <+: other then none else tree.get? other := by
  have kept := lookup_filter (fun position => !place.isPrefixOf position) tree.known other
  by_cases around : other <+: tree.working
  · have still : (tree.eraseBelow place).get? other = some .directory := get?_of_isPrefix around
    have apart : ¬ place <+: other := fun below => inside (below.trans around)
    rw [still, if_neg apart, get?_of_isPrefix around]
  · have found : (tree.eraseBelow place).get? other =
      (tree.eraseBelow place).known.lookup other := get?_of_inside around
    rw [found, get?_of_inside around, eraseBelow, kept]
    by_cases below : place <+: other
    · rw [if_pos below, List.isPrefixOf_iff_prefix.2 below]
      rfl
    · have apart : place.isPrefixOf other = false :=
        Bool.eq_false_iff.2 (mt List.isPrefixOf_iff_prefix.1 below)
      rw [if_neg below, apart]
      rfl

/-- An entry that is put into a directory, in no place of another directory, stands in one. -/
theorem Sound.insert (sound : tree.Sound) (around : tree.get? here = some .directory)
    (free : tree.get? (here ++ [name]) ≠ some .directory) :
    (tree.insert (here ++ [name]) entry).Sound := by
  have inside := not_prefix_of_get? free
  intro place inner found
  rw [get?_insert inside] at found ⊢
  by_cases into : place = here ++ [name]
  · -- Nothing stands below what is replaced.
    have apart : place ++ [inner] ≠ here ++ [name] := by simp [into]
    rw [if_neg apart, into] at found
    exact absurd (sound _ inner found) free
  · rw [if_neg into]
    by_cases same : place ++ [inner] = here ++ [name]
    · rw [(List.append_inj' same rfl).1]
      exact around
    · rw [if_neg same] at found
      exact sound place inner found

theorem Sound.erase (sound : tree.Sound) (free : tree.get? place ≠ some .directory) :
    (tree.erase place).Sound := by
  have inside := not_prefix_of_get? free
  intro around inner found
  rw [get?_erase inside] at found ⊢
  split at found
  · exact absurd rfl found
  · have directory := sound around inner found
    have apart : around ≠ place := fun same => free (same ▸ directory)
    rw [if_neg apart]
    exact directory

theorem Grows.of_erase (free : tree.get? place ≠ some .directory) :
    tree.Grows (tree.erase place) := by
  refine ⟨rfl, fun other directory => ?_⟩
  have apart : other ≠ place := fun same => free (same ▸ directory)
  rw [get?_erase (not_prefix_of_get? free), if_neg apart]
  exact directory

theorem Sound.eraseBelow (sound : tree.Sound) (inside : ¬ place <+: tree.working) :
    (tree.eraseBelow place).Sound := by
  intro around inner found
  rw [get?_eraseBelow inside] at found ⊢
  split at found
  · exact absurd rfl found
  · rename_i apart
    rw [if_neg fun below => apart (below.trans (List.prefix_append ..))]
    exact sound around inner found

end FileTree

end RelaxDoc
