import RelaxDoc.File.Tree
import RelaxDoc.Proofs.Text.Parts

/-! The components of paths, and what the path around a path has of them. -/
namespace RelaxDoc

namespace Path

theorem filled_append (left right : List (List Char)) :
    filled (left ++ right) = filled left ++ filled right := by
  simp [filled]

/-- A component that counts for nothing is empty or a dot. -/
theorem filled_idle {parts : List (List Char)} (idle : ∀ part ∈ parts, isIdle part = true) :
    ∀ component ∈ filled parts, component = "." := by
  intro component member
  obtain ⟨part, among, rfl⟩ := List.mem_map.1 member
  obtain ⟨among, content⟩ := List.mem_filter.1 among
  have counts := idle part among
  simp only [isIdle, Bool.or_eq_true, beq_iff_eq] at counts
  rcases counts with rfl | rfl
  · simp at content
  · rfl

/-- What is dropped from the end of a path counts for nothing. -/
theorem exists_idle (absolute : Bool) {parts : List (List Char)}
    (root : absolute = true → ∀ part ∈ parts.getLast?, part = []) :
    ∃ idle, parts = idle ++ dropIdle absolute parts ∧ ∀ part ∈ idle, isIdle part = true := by
  induction parts with
  | nil => exact ⟨[], rfl, nofun⟩
  | cons part rest ih =>
    cases rest with
    | nil =>
      rw [dropIdle]
      split
      · rename_i dropped
        refine ⟨[part], rfl, fun other member => ?_⟩
        rw [List.mem_singleton.1 member]
        rcases Bool.or_eq_true_iff.1 dropped with outermost | empty
        · rw [root outermost part rfl]
          rfl
        · rw [beq_iff_eq.1 empty]
          rfl
      · exact ⟨[], rfl, nofun⟩
    | cons next later =>
      rw [dropIdle]
      · split
        · rename_i idle
          obtain ⟨further, same, all⟩ := ih root
          refine ⟨part :: further, congrArg (part :: ·) same, fun other member => ?_⟩
          rcases List.mem_cons.1 member with rfl | among
          · exact idle
          · exact all other among
        · exact ⟨[], rfl, nofun⟩
      · exact nofun

theorem dropIdle_dropIdle (absolute : Bool) (parts : List (List Char)) :
    dropIdle absolute (dropIdle absolute parts) = dropIdle absolute parts := by
  induction parts with
  | nil => rfl
  | cons part rest ih =>
    cases rest with
    | nil =>
      rw [dropIdle]
      split
      · rfl
      · rename_i kept
        rw [dropIdle, if_neg kept]
    | cons next later =>
      rw [dropIdle]
      · split
        · exact ih
        · rename_i active
          rw [dropIdle, if_neg active]
          exact nofun
      · exact nofun

/-- A last component that is left is not empty. -/
theorem ne_nil_of_dropIdle {absolute : Bool} {parts before : List (List Char)} {last : List Char}
    (left : dropIdle absolute parts = last :: before) : last ≠ [] := by
  induction parts with
  | nil => cases left
  | cons part rest ih =>
    rintro rfl
    cases rest with
    | nil =>
      rw [dropIdle] at left
      split at left
      · cases left
      · rename_i kept
        cases left
        simp at kept
    | cons next later =>
      rw [dropIdle] at left
      · split at left
        · exact ih left rfl
        · rename_i active
          cases left
          exact active rfl
      · exact nofun

/-- The written components of a path begin with an empty one exactly if the path is absolute or
empty. -/
theorem head?_written_eq_nil_iff (path : String) :
    (written path.toList).head? = some [] ↔ path = "" ∨ isAbsolute path = true := by
  rw [written, Text.head?_split_eq_nil_iff, isAbsolute, beq_iff_eq, String.toList_eq_nil_iff]

theorem written_ofActive {absolute : Bool} {parts : List (List Char)} (some : parts ≠ [])
    (clean : ∀ part ∈ parts, '/' ∉ part) :
    written (ofActive absolute parts).toList = parts.reverse := by
  have text : (ofActive absolute parts).toList = Text.joinWith ['/'] parts.reverse := by
    cases parts with
    | nil => exact absurd rfl some
    | cons part rest => rw [ofActive, String.toList_ofList]; exact nofun
  rw [written, text]
  refine Text.split_joinWith (by simpa using some) fun part member => ?_
  exact clean part (List.mem_reverse.1 member)

theorem components_ofActive {absolute : Bool} {parts : List (List Char)}
    (clean : ∀ part ∈ parts, '/' ∉ part) :
    components (ofActive absolute parts) = filled parts.reverse := by
  by_cases some : parts = []
  · rw [some]
    cases absolute <;> rfl
  · rw [components, written_ofActive some clean]

/-- The first component of a path decides whether it is absolute. -/
theorem isAbsolute_eq_of_head? {outer path : String} (filled : path ≠ "") (also : outer ≠ "")
    (same : (written outer.toList).head? = (written path.toList).head?) :
    isAbsolute outer = isAbsolute path := by
  have other := head?_written_eq_nil_iff outer
  rw [same, head?_written_eq_nil_iff path, or_iff_right filled, or_iff_right also] at other
  exact Bool.eq_iff_iff.2 other.symm

/-- A path that has nothing at its end that counts for nothing. -/
def IsTrimmed (path : String) : Prop :=
  active path = (written path.toList).reverse ∨ active path = []

/-- The path around another, and how the components of the two go together. -/
structure IsAround (outer path : String) : Prop where
  absolute : isAbsolute outer = isAbsolute path
  trimmed : IsTrimmed outer
  /-- Up to single dots the path has one component more. -/
  components : ∃ between last after,
    components path = components outer ++ (between ++ last :: after) ∧
      (∀ component ∈ between, component = ".") ∧ (∀ component ∈ after, component = ".") ∧
      (IsTrimmed path → after = [])

/-- The first written component of an absolute path is empty, also if what comes last is left out. -/
theorem getLast?_of_absolute (path : String) (dropped : List (List Char))
    {parts : List (List Char)} (same : (written path.toList).reverse = dropped ++ parts)
    (absolute : isAbsolute path = true) :
    ∀ part ∈ parts.getLast?, part = [] := by
  intro part last
  have first : (written path.toList).head? = some part := by
    rw [← List.getLast?_reverse, same, List.getLast?_append, last]
    rfl
  have empty := (head?_written_eq_nil_iff path).2 (.inr absolute)
  rw [first] at empty
  exact Option.some.inj empty

/-- The path around another is written with the components before the last one that counts. -/
theorem exists_parts_of_parent? {path outer : String} (found : parent? path = some outer) :
    ∃ around between last after, outer = ofActive (isAbsolute path) around ∧
      dropIdle (isAbsolute path) around = around ∧
      written path.toList = around.reverse ++ (between ++ last :: after) ∧ last ≠ [] ∧
      (∀ part ∈ between, isIdle part = true) ∧ (∀ part ∈ after, isIdle part = true) ∧
      (IsTrimmed path → after = []) := by
  rw [parent?] at found
  split at found
  · cases found
  rename_i last before active
  cases found
  have left : dropIdle (isAbsolute path) (written path.toList).reverse = last :: before := active
  have root := getLast?_of_absolute path [] (List.nil_append _).symm
  obtain ⟨after, parts, idle⟩ := exists_idle (isAbsolute path) root
  rw [left, ← List.singleton_append, ← List.append_assoc] at parts
  obtain ⟨between, split, further⟩ :=
    exists_idle (isAbsolute path) (getLast?_of_absolute path _ parts)
  refine ⟨dropIdle (isAbsolute path) before, between.reverse, last, after.reverse, rfl,
    dropIdle_dropIdle _ _, ?_, ne_nil_of_dropIdle left, ?_, ?_, ?_⟩
  · have before : before.reverse = _ := congrArg List.reverse split
    rw [← (written path.toList).reverse_reverse, parts, List.reverse_append, before]
    simp
  · exact fun part member => further part (List.mem_reverse.1 member)
  · exact fun part member => idle part (List.mem_reverse.1 member)
  · rintro (trimmed | none)
    · rw [← trimmed, active, List.append_assoc] at parts
      have short := congrArg List.length parts
      simp only [List.length_append, List.length_cons, List.length_nil] at short
      rw [List.eq_nil_of_length_eq_zero (by omega : after.length = 0)]
      rfl
    · rw [active] at none
      cases none

theorem isAround_of_parent? {path outer : String} (found : parent? path = some outer) :
    IsAround outer path := by
  have filled : path ≠ "" := by
    rintro rfl
    cases found
  obtain ⟨around, between, last, after, rfl, kept, order, content, further, idle, whole⟩ :=
    exists_parts_of_parent? found
  have clean : ∀ part ∈ around, '/' ∉ part := by
    intro part member
    have among : part ∈ written path.toList :=
      order ▸ List.mem_append_left _ (List.mem_reverse.2 member)
    exact Text.not_mem_split among
  have absolute : isAbsolute (ofActive (isAbsolute path) around) = isAbsolute path := by
    by_cases empty : around = []
    · rw [empty]
      cases isAbsolute path <;> rfl
    · have parts : written (ofActive (isAbsolute path) around).toList = _ :=
        written_ofActive empty clean
      refine isAbsolute_eq_of_head? filled ?_ ?_
      · intro none
        rw [none] at parts
        have single : around = [[]] := List.reverse_inj.1 parts.symm
        rw [single] at kept
        cases absolute : isAbsolute path <;> simp [absolute, dropIdle] at kept
      · obtain ⟨first, rest, same⟩ := List.exists_cons_of_ne_nil (List.reverse_ne_nil_iff.2 empty)
        rw [parts, order, same]
        rfl
  refine ⟨absolute, ?_, Path.filled between, String.ofList last, Path.filled after, ?_, ?_, ?_, ?_⟩
  · by_cases empty : around = []
    · right
      rw [empty]
      cases isAbsolute path <;> rfl
    · left
      rw [active, absolute, written_ofActive empty clean, List.reverse_reverse, kept]
  · rw [components, order, filled_append, filled_append, components_ofActive clean]
    congr 2
    simp [Path.filled, content]
  · exact filled_idle further
  · exact filled_idle idle
  · intro trimmed
    rw [whole trimmed]
    rfl

end Path

end RelaxDoc
