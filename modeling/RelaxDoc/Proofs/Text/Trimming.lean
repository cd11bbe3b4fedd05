import RelaxDoc.Name
import RelaxDoc.Text.Blank
import Mathlib.Data.List.TakeWhile

/-! White space at the ends of a text. What is trimmed away makes no difference, and names have
none. -/
namespace RelaxDoc

namespace Text

variable {cs before after : List Char}

theorem trimStart_append (blank : ∀ c ∈ before, isBlank c = true) :
    trimStart (before ++ cs) = trimStart cs := List.dropWhile_append_of_pos blank

theorem trimEnd_append (blank : ∀ c ∈ after, isBlank c = true) :
    trimEnd (cs ++ after) = trimEnd cs := by
  unfold trimEnd
  rw [List.reverse_append, List.dropWhile_append_of_pos]
  exact fun c member => blank c (List.mem_reverse.1 member)

theorem trimStart_eq_nil_iff : trimStart cs = [] ↔ ∀ c ∈ cs, isBlank c = true :=
  List.dropWhile_eq_nil_iff

/-- White space around a text is trimmed away. -/
theorem trim_append_append (lead : ∀ c ∈ before, isBlank c = true)
    (trail : ∀ c ∈ after, isBlank c = true) : trim (before ++ (cs ++ after)) = trim cs := by
  unfold trim
  rw [trimStart_append lead]
  by_cases blank : ∀ c ∈ cs, isBlank c = true
  · have whole : trimStart (cs ++ after) = [] := by
      rw [trimStart_append blank, trimStart_eq_nil_iff.2 trail]
    rw [whole, trimStart_eq_nil_iff.2 blank]
  · have first : trimStart (cs ++ after) = trimStart cs ++ after := by
      unfold trimStart
      rw [List.dropWhile_append, if_neg]
      rwa [List.isEmpty_iff, ← trimStart, trimStart_eq_nil_iff]
    rw [first, trimEnd_append trail]

/-- A text without white space at its ends. -/
structure IsTrimmed (cs : List Char) : Prop where
  first : ∀ c ∈ cs.head?, isBlank c = false
  last : ∀ c ∈ cs.getLast?, isBlank c = false

theorem isBlank_of_head?_dropWhile {c : Char} (first : (cs.dropWhile isBlank).head? = some c) :
    isBlank c = false := by
  have stops := List.head?_dropWhile_not isBlank cs
  rwa [first] at stops

theorem isTrimmed_trim (cs : List Char) : IsTrimmed (trim cs) := by
  refine ⟨fun c first => ?_, fun c last => ?_⟩
  · -- What is left of the end begins like what is left of the start.
    obtain ⟨taken, whole⟩ := List.dropWhile_suffix (l := (trimStart cs).reverse) isBlank
    have start : trimStart cs = trim cs ++ taken.reverse := by
      rw [← List.reverse_reverse (trimStart cs), ← whole, List.reverse_append]
      rfl
    have same : (trimStart cs).head? = some c := by rw [start, List.head?_append, first]; rfl
    exact isBlank_of_head?_dropWhile same
  · rw [trim, trimEnd, List.getLast?_reverse] at last
    exact isBlank_of_head?_dropWhile last

theorem IsTrimmed.trim_eq (trimmed : IsTrimmed cs) : trim cs = cs := by
  have kept {cs : List Char} (first : ∀ c ∈ cs.head?, isBlank c = false) :
      cs.dropWhile isBlank = cs := by
    cases cs with
    | nil => rfl
    | cons c rest => rw [List.dropWhile_cons, first c rfl]; rfl
  unfold trim trimStart trimEnd
  rw [kept trimmed.first, kept (by simpa using trimmed.last), List.reverse_reverse]

theorem trim_of_no_blank (clean : ∀ c ∈ cs, isBlank c = false) : trim cs = cs :=
  IsTrimmed.trim_eq ⟨fun c first => clean c (List.mem_of_mem_head? first),
    fun c last => clean c (List.mem_of_mem_getLast? last)⟩

theorem mem_of_mem_trim {c : Char} (mem : c ∈ trim cs) : c ∈ cs := by
  have inStart := (List.dropWhile_sublist _).subset (List.mem_reverse.1 mem)
  exact (List.dropWhile_sublist _).subset (List.mem_reverse.1 inStart)

/-- The characters of a text other than white space. -/
def nonBlank (cs : List Char) : List Char := cs.filter fun c => !isBlank c

theorem nonBlank_append (cs others : List Char) : nonBlank (cs ++ others) = nonBlank cs ++ nonBlank others :=
  List.filter_append ..

theorem nonBlank_eq_nil_iff : nonBlank cs = [] ↔ ∀ c ∈ cs, isBlank c = true := by
  simp [nonBlank, List.filter_eq_nil_iff]

theorem nonBlank_dropWhile (cs : List Char) : nonBlank (cs.dropWhile isBlank) = nonBlank cs := by
  have blank : nonBlank (cs.takeWhile isBlank) = [] :=
    nonBlank_eq_nil_iff.2 fun _ member => List.mem_takeWhile_imp member
  calc nonBlank (cs.dropWhile isBlank)
      = nonBlank (cs.takeWhile isBlank) ++ nonBlank (cs.dropWhile isBlank) := by rw [blank]; rfl
    _ = nonBlank cs := by rw [← nonBlank_append, List.takeWhile_append_dropWhile]

/-- Only white space is trimmed away. -/
theorem nonBlank_trim (cs : List Char) : nonBlank (trim cs) = nonBlank cs := by
  have reversed (cs : List Char) : nonBlank cs.reverse = (nonBlank cs).reverse := List.filter_reverse
  rw [trim, trimEnd, reversed, nonBlank_dropWhile, reversed, List.reverse_reverse]
  exact nonBlank_dropWhile cs

theorem IsTrimmed.eq_nil_iff (trimmed : IsTrimmed cs) : cs = [] ↔ nonBlank cs = [] := by
  refine ⟨fun none => congrArg nonBlank none, fun none => ?_⟩
  cases cs with
  | nil => rfl
  | cons c rest =>
    have blank := nonBlank_eq_nil_iff.1 none c (List.mem_cons_self ..)
    rw [trimmed.first c rfl] at blank
    cases blank

theorem trimmed_append_append {before after text : String}
    (lead : ∀ c ∈ before.toList, isBlank c = true) (trail : ∀ c ∈ after.toList, isBlank c = true) :
    trimmed (before ++ text ++ after) = trimmed text := by
  unfold trimmed
  rw [String.toList_append, String.toList_append, List.append_assoc, trim_append_append lead trail]

end Text

namespace Name

theorem isBlank_of_isRest {c : Char} (rest : isRest c = true) : Text.isBlank c = false := by
  have code (a b : Char) : a ≤ b ↔ a.toNat ≤ b.toNat := by
    rw [Char.le_def, UInt32.le_iff_toNat_le]
    rfl
  have same (a b : Char) : a = b ↔ a.toNat = b.toNat := by
    refine ⟨congrArg _, fun equal => Char.ext (UInt32.toNat_inj.1 equal)⟩
  simp only [isRest, isStart, Bool.or_eq_true, Bool.and_eq_true, decide_eq_true_eq, beq_iff_eq,
    code, same] at rest
  simp only [Text.isBlank, Bool.or_eq_false_iff, Bool.and_eq_false_iff, decide_eq_false_iff_not,
    beq_eq_false_iff_ne]
  simp only [show 'A'.toNat = 65 from rfl, show 'Z'.toNat = 90 from rfl,
    show 'a'.toNat = 97 from rfl, show 'z'.toNat = 122 from rfl, show '_'.toNat = 95 from rfl,
    show '0'.toNat = 48 from rfl, show '9'.toNat = 57 from rfl, show '-'.toNat = 45 from rfl,
    show '.'.toNat = 46 from rfl] at rest
  omega

theorem isBlank_of_isSimple {name : String} (simple : isSimple name = true) :
    ∀ c ∈ name.toList, Text.isBlank c = false := by
  unfold isSimple at simple
  intro c member
  apply isBlank_of_isRest
  cases chars : name.toList with
  | nil =>
    rw [chars] at member
    cases member
  | cons first rest =>
    rw [chars] at simple member
    obtain ⟨start, all⟩ := Bool.and_eq_true_iff.1 simple
    rcases List.mem_cons.1 member with rfl | later
    · simp [isRest, start]
    · exact List.all_eq_true.1 all c later

theorem trimmed_of_isSimple {name : String} (simple : isSimple name = true) :
    Text.trimmed name = name := by
  unfold Text.trimmed
  rw [Text.trim_of_no_blank (isBlank_of_isSimple simple), String.ofList_toList]

/-- White space at an end of a text is in the way of its being a name. -/
theorem isSimple_append_append {before after text : String}
    (lead : ∀ c ∈ before.toList, Text.isBlank c = true)
    (trail : ∀ c ∈ after.toList, Text.isBlank c = true) (filled : before ≠ "" ∨ after ≠ "") :
    isSimple (before ++ text ++ after) = false := by
  refine eq_false_of_ne_true fun simple => ?_
  have clean := isBlank_of_isSimple simple
  simp only [String.toList_append, List.mem_append] at clean
  have empty {part : String} (blank : ∀ c ∈ part.toList, Text.isBlank c = true)
      (among : ∀ c ∈ part.toList, Text.isBlank c = false) : part = "" := by
    apply String.toList_eq_nil_iff.1
    apply List.eq_nil_iff_forall_not_mem.2
    intro c member
    exact Bool.false_ne_true ((among c member).symm.trans (blank c member))
  rcases filled with some | some
  · exact some (empty lead fun c member => clean c (.inl (.inl member)))
  · exact some (empty trail fun c member => clean c (.inr member))

end Name

end RelaxDoc
