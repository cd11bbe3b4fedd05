import RelaxDoc.Proofs.Text.Parts
import RelaxDoc.Proofs.Text.Trimming
import Mathlib.Data.List.Basic

/-! The single line that a text is shown as. It is a normal form: it has all of a text but white space
at the ends of its lines, it does not depend on how line ends are written, and the text of two parts
has the lines of both. -/
namespace RelaxDoc.Text

variable {cs line : List Char} {lines others : List (List Char)}

section Lines

/-- A line of those that are joined: without line feeds, without white space at its ends, and not
empty. -/
structure IsFilled (line : List Char) : Prop where
  unbroken : '\n' ∉ line
  trimmed : IsTrimmed line
  filled : line ≠ []

theorem isFilled_of_mem_filledLines (member : line ∈ filledLines cs) : IsFilled line := by
  obtain ⟨among, filled⟩ := List.mem_filter.1 member
  obtain ⟨whole, part, rfl⟩ := List.mem_map.1 among
  exact ⟨fun feed => not_mem_split part (mem_of_mem_trim feed), isTrimmed_trim whole,
    by simpa using filled⟩

/-- The lines of a text are those before a line feed and those behind it. -/
theorem filledLines_append_feed (cs rest : List Char) :
    filledLines (cs ++ '\n' :: rest) = filledLines cs ++ filledLines rest := by
  rw [filledLines, split_append_mark, List.map_append, List.filter_append]
  rfl

theorem filledLines_of_unbroken (unbroken : '\n' ∉ cs) :
    filledLines cs = [trim cs].filter fun line => !line.isEmpty := by
  rw [filledLines, split_of_clean unbroken]
  rfl

end Lines

section Joined

variable {joint : List Char}

/-- Joined lines begin as the first of them does and end as the last. -/
theorem isTrimmed_joinWith (trimmed : ∀ line ∈ lines, IsTrimmed line)
    (filled : ∀ line ∈ lines, line ≠ []) : IsTrimmed (joinWith joint lines) := by
  induction lines with
  | nil => exact ⟨nofun, nofun⟩
  | cons first rest ih =>
    rw [List.forall_mem_cons] at trimmed filled
    cases rest with
    | nil => exact trimmed.1
    | cons second rest =>
      have later := ih trimmed.2 filled.2
      have more : joinWith joint (second :: rest) ≠ [] :=
        mt (joinWith_eq_nil_iff filled.2).1 nofun
      refine ⟨fun c head => ?_, fun c last => ?_⟩
      · rw [joinWith, List.append_assoc, List.head?_append_of_ne_nil _ filled.1] at head
        exact trimmed.1.first c head
      · rw [joinWith, List.getLast?_append_of_ne_nil _ more] at last
        exact later.last c last

theorem nonBlank_joinWith (blank : nonBlank joint = []) (lines : List (List Char)) :
    nonBlank (joinWith joint lines) = lines.flatMap nonBlank := by
  fun_induction joinWith joint lines with
  | case1 => rfl
  | case2 last => exact (List.append_nil _).symm
  | case3 first second rest ih =>
    rw [nonBlank_append, nonBlank_append, blank, List.append_nil, ih]
    rfl

/-- The lines of two texts are joined by joining those of each, where there are any. -/
theorem joinWith_append_eq (filled : ∀ line ∈ lines, line ≠ [])
    (more : ∀ line ∈ others, line ≠ []) (joint : List Char) :
    joinWith joint (lines ++ others) = joinWith joint
      ([joinWith joint lines, joinWith joint others].filter fun line => !line.isEmpty) := by
  by_cases none : lines = []
  · by_cases nothing : others = []
    · simp [none, nothing, joinWith]
    · simp [none, joinWith, (joinWith_eq_nil_iff more).not.2 nothing]
  · by_cases nothing : others = []
    · simp [nothing, joinWith, (joinWith_eq_nil_iff filled).not.2 none]
    · simp [joinWith_append none nothing, joinWith, (joinWith_eq_nil_iff filled).not.2 none,
        (joinWith_eq_nil_iff more).not.2 nothing]

end Joined

/-- The lines have all of a text but white space. -/
theorem nonBlank_filledLines (cs : List Char) : (filledLines cs).flatMap nonBlank = nonBlank cs := by
  have kept (lines : List (List Char)) :
      (lines.filter fun line => !line.isEmpty).flatMap nonBlank = lines.flatMap nonBlank := by
    induction lines with
    | nil => rfl
    | cons line rest ih => cases line <;> simp [ih, nonBlank]
  have feed : nonBlank ['\n'] = [] := rfl
  rw [filledLines, kept, List.flatMap_map]
  simp only [nonBlank_trim]
  rw [← nonBlank_joinWith feed, joinWith_split]

/-- How a line may end. -/
def lineEnds : List (List Char) := [['\n'], ['\r', '\n']]

/-- Texts of the same lines. What ends a line may be another line end in the other text. -/
inductive SameLines : List Char → List Char → Prop where
  | last {line : List Char} (unbroken : '\n' ∉ line) : SameLines line line
  | line (line : List Char) {one other ending otherEnding : List Char} (unbroken : '\n' ∉ line)
    (ends : ending ∈ lineEnds) (otherEnds : otherEnding ∈ lineEnds) (same : SameLines one other) :
    SameLines (line ++ ending ++ one) (line ++ otherEnding ++ other)

/-- A carriage return before a line feed is trimmed away with the end of its line. -/
theorem filledLines_append_ending {ending : List Char} (unbroken : '\n' ∉ line)
    (ends : ending ∈ lineEnds) (rest : List Char) :
    filledLines (line ++ ending ++ rest) = filledLines line ++ filledLines rest := by
  have either : ending = ['\n'] ∨ ending = ['\r', '\n'] := by simpa [lineEnds] using ends
  rcases either with rfl | rfl
  · rw [List.append_assoc]
    exact filledLines_append_feed line rest
  · have none : ∀ c ∈ ([] : List Char), isBlank c = true := nofun
    have blank : ∀ c ∈ ['\r'], isBlank c = true := List.all_eq_true.1 rfl
    have returned : trim (line ++ ['\r']) = trim line := trim_append_append none blank
    have whole : '\n' ∉ line ++ ['\r'] := by simpa using unbroken
    calc filledLines (line ++ ['\r', '\n'] ++ rest)
        = filledLines ((line ++ ['\r']) ++ '\n' :: rest) := by simp
      _ = filledLines line ++ filledLines rest := by
        rw [filledLines_append_feed, filledLines_of_unbroken whole, returned,
          filledLines_of_unbroken unbroken]

theorem SameLines.filledLines_eq {one other : List Char} (same : SameLines one other) :
    filledLines one = filledLines other := by
  induction same with
  | last => rfl
  | line _ unbroken ends otherEnds _ ih =>
    rw [filledLines_append_ending unbroken ends, filledLines_append_ending unbroken otherEnds, ih]

section SingleLine

variable (text : String)

theorem toList_singleLine :
    (singleLine text).toList = joinWith [' '] (filledLines text.toList) := String.toList_ofList ..

theorem feed_not_mem_singleLine : '\n' ∉ (singleLine text).toList := by
  rw [toList_singleLine]
  intro feed
  rcases mem_joinWith feed with joint | ⟨line, among, inLine⟩
  · simp at joint
  · exact (isFilled_of_mem_filledLines among).unbroken inLine

theorem isTrimmed_singleLine : IsTrimmed (singleLine text).toList := by
  rw [toList_singleLine]
  exact isTrimmed_joinWith (fun line among => (isFilled_of_mem_filledLines among).trimmed)
    fun line among => (isFilled_of_mem_filledLines among).filled

theorem nonBlank_singleLine : nonBlank (singleLine text).toList = nonBlank text.toList := by
  have space : nonBlank [' '] = [] := rfl
  rw [toList_singleLine, nonBlank_joinWith space, nonBlank_filledLines]

theorem singleLine_eq_empty_iff :
    singleLine text = "" ↔ ∀ c ∈ text.toList, isBlank c = true := by
  rw [← String.toList_eq_nil_iff, (isTrimmed_singleLine text).eq_nil_iff, nonBlank_singleLine,
    nonBlank_eq_nil_iff]

/-- A single line is its only line, if there is anything in it. -/
theorem singleLine_singleLine : singleLine (singleLine text) = singleLine text := by
  have only : filledLines (singleLine text).toList =
      [(singleLine text).toList].filter fun line => !line.isEmpty := by
    rw [filledLines_of_unbroken (feed_not_mem_singleLine text),
      (isTrimmed_singleLine text).trim_eq]
  rw [← String.toList_inj, toList_singleLine, only]
  cases (singleLine text).toList <;> rfl

theorem singleLine_append_feed (other : String) : singleLine (text ++ "\n" ++ other) =
    " ".intercalate ([singleLine text, singleLine other].filter (· ≠ "")) := by
  have parts : (text ++ "\n" ++ other).toList = text.toList ++ '\n' :: other.toList := by simp
  have shown (lines : List String) : (lines.filter (· ≠ "")).map String.toList =
      (lines.map String.toList).filter fun line => !line.isEmpty := by
    rw [List.filter_map]
    congr 2
    funext line
    rw [Bool.eq_iff_iff]
    simp
  have filled (text : String) (line : List Char) (among : line ∈ filledLines text.toList) :
      line ≠ [] := (isFilled_of_mem_filledLines among).filled
  rw [← String.toList_inj, toList_singleLine, parts, filledLines_append_feed,
    joinWith_append_eq (filled text) (filled other), ← toList_singleLine, ← toList_singleLine,
    joinWith_eq_intercalate, String.toList_intercalate, shown]
  rfl

end SingleLine

/-- A text as a single line is in normal form: without line feeds and without white space at its ends,
with all other characters of the text in their order, and empty only if there are none. It does not
depend on how line ends are written, and behind a line feed goes on behind one space. -/
theorem singleLine_normalizes (text : String) :
    singleLine (singleLine text) = singleLine text ∧
    '\n' ∉ (singleLine text).toList ∧
    IsTrimmed (singleLine text).toList ∧
    (singleLine text = "" ↔ ∀ c ∈ text.toList, isBlank c = true) ∧
    nonBlank (singleLine text).toList = nonBlank text.toList ∧
    (∀ other : String, SameLines text.toList other.toList →
      singleLine other = singleLine text) ∧
    ∀ other : String, singleLine (text ++ "\n" ++ other) =
      " ".intercalate ([singleLine text, singleLine other].filter (· ≠ "")) := by
  refine ⟨singleLine_singleLine text, feed_not_mem_singleLine text, isTrimmed_singleLine text,
    singleLine_eq_empty_iff text, nonBlank_singleLine text, fun other same => ?_,
    singleLine_append_feed text⟩
  rw [singleLine, singleLine, same.filledLines_eq]

/-- Two lines around blank ones, with either line end after each of the first three, are the same
single line. -/
theorem singleLine_of_mixed_ends :
    SameLines "\u00a0First \r\n\n\t\r\nsecond\r line\r".toList
      "\u00a0First \n\r\n\t\nsecond\r line\r".toList ∧
    singleLine "\u00a0First \r\n\n\t\r\nsecond\r line\r" = "First second\r line" ∧
    singleLine "\u00a0First \n\r\n\t\nsecond\r line\r" = "First second\r line" := by
  have feed : ['\n'] ∈ lineEnds := by simp [lineEnds]
  have returned : ['\r', '\n'] ∈ lineEnds := by simp [lineEnds]
  have last : SameLines "second\r line\r".toList "second\r line\r".toList := .last (by decide)
  have same : SameLines "\u00a0First \r\n\n\t\r\nsecond\r line\r".toList
      "\u00a0First \n\r\n\t\nsecond\r line\r".toList :=
    .line "\u00a0First ".toList (by decide) returned feed
      (.line [] (by decide) feed returned (.line ['\t'] (by decide) returned feed last))
  have shown : singleLine "\u00a0First \r\n\n\t\r\nsecond\r line\r" = "First second\r line" := by
    decide +kernel
  obtain ⟨-, -, -, -, -, ends, -⟩ :=
    singleLine_normalizes "\u00a0First \r\n\n\t\r\nsecond\r line\r"
  exact ⟨same, shown, (ends _ same).trans shown⟩

end RelaxDoc.Text
