import RelaxDoc.Proofs.Xml.Unambiguous

/-! Line ends. A reader of documents turns each carriage return, with the line feed behind it if there is
one, into a line feed before it reads anything else. The markup of a sheet has no carriage returns, so the text
stays one that writes a sheet, with other strings in it. -/
namespace RelaxDoc.Xml

/-- The characters with each line end as a line feed. -/
def lineEnds : List Char → List Char
  | '\r' :: '\n' :: rest => '\n' :: lineEnds rest
  | '\r' :: rest => '\n' :: lineEnds rest
  | c :: rest => c :: lineEnds rest
  | [] => []

/-- A text with each line end as a line feed. -/
def withLineEnds (text : String) : String := String.ofList (lineEnds text.toList)

theorem lineEnds_cons {c : Char} (other : c ≠ '\r') (rest : List Char) :
    lineEnds (c :: rest) = c :: lineEnds rest := by
  rw [lineEnds]
  · exact fun _ eq _ => other eq
  · exact other

theorem lineEnds_append_of_not_mem {one : List Char} (noReturn : '\r' ∉ one) (other : List Char) :
    lineEnds (one ++ other) = one ++ lineEnds other := by
  induction one with
  | nil => rfl
  | cons c one ih =>
    simp only [List.mem_cons, not_or] at noReturn
    rw [List.cons_append, lineEnds_cons (Ne.symm noReturn.1), ih noReturn.2, List.cons_append]

theorem lineEnds_return {rest : List Char} (noFeed : rest.head? ≠ some '\n') :
    lineEnds ('\r' :: rest) = '\n' :: lineEnds rest := by
  rw [lineEnds]
  rintro more rfl
  exact noFeed rfl

/-- A text in front of one that no line feed begins. -/
theorem lineEnds_append {other : List Char} (one : List Char) (begins : other.head? ≠ some '\n') :
    lineEnds (one ++ other) = lineEnds one ++ lineEnds other := by
  fun_induction lineEnds one with
  | case1 rest ih => rw [List.cons_append, List.cons_append, lineEnds, ih, List.cons_append]
  | case2 rest noFeed ih =>
    rw [List.cons_append, lineEnds_return, ih, List.cons_append]
    cases rest with
    | nil => exact begins
    | cons c more => exact fun same => noFeed more (congrArg (· :: more) (Option.some.inj same))
  | case3 c rest _ noReturn ih => rw [List.cons_append, lineEnds_cons noReturn, ih, List.cons_append]
  | case4 => rfl

theorem return_not_mem_lineEnds (text : List Char) : '\r' ∉ lineEnds text := by
  fun_induction lineEnds text with
  | case1 rest ih => simpa using ih
  | case2 rest _ ih => simpa using ih
  | case3 c rest _ noReturn ih => simpa using ⟨Ne.symm noReturn, ih⟩
  | case4 => simp

theorem mem_lineEnds {c : Char} {text : List Char} (mem : c ∈ lineEnds text) : c = '\n' ∨ c ∈ text := by
  fun_induction lineEnds text with
  | case1 rest ih => grind
  | case2 rest _ ih => grind
  | case3 d rest _ _ ih => grind
  | case4 => exact .inr mem

theorem lineEnds_eq_self_iff {text : List Char} : lineEnds text = text ↔ '\r' ∉ text := by
  constructor
  · intro same
    rw [← same]
    exact return_not_mem_lineEnds text
  · intro noReturn
    have whole := lineEnds_append_of_not_mem noReturn []
    rwa [List.append_nil, lineEnds, List.append_nil] at whole

theorem eq_return_or_mem_lineEnds {c : Char} {text : List Char} (mem : c ∈ text) :
    c = '\r' ∨ c ∈ lineEnds text := by
  fun_induction lineEnds text with
  | case1 rest ih => grind
  | case2 rest _ ih => grind
  | case3 d rest _ _ ih => grind
  | case4 => exact .inr mem

/-- All characters of line ends are legal. -/
theorem legalText_withLineEnds {text : String} : LegalText (withLineEnds text) ↔ LegalText text := by
  rw [LegalText, withLineEnds, String.toList_ofList]
  constructor
  · intro legal c mem
    rcases eq_return_or_mem_lineEnds mem with rfl | mem
    · decide
    · exact legal c mem
  · intro legal c mem
    rcases mem_lineEnds mem with rfl | mem
    · decide
    · exact legal c mem

theorem return_not_mem_escapedChar {c : Char} (other : c ≠ '\r') : '\r' ∉ escapedChar c := by
  by_cases plain : c ∈ special
  · exact (show ∀ c ∈ special, '\r' ∉ escapedChar c from forall_mem_of_all (by decide)) c plain
  · rw [escapedChar_of_plain plain, List.mem_singleton]
    exact Ne.symm other

theorem head?_escapedChar_ne {c : Char} (other : c ≠ '\n') (rest : List Char) :
    (escapedChar c ++ rest).head? ≠ some '\n' := by
  by_cases plain : c ∈ special
  · have begins : ∀ c ∈ special, (escapedChar c).head? = some '&' :=
      forall_mem_of_all (by decide)
    rw [List.head?_append, begins c plain]
    simp
  · rw [escapedChar_of_plain plain]
    exact fun same => other (Option.some.inj same)

/-- Escaping adds no line ends and takes none away. -/
theorem lineEnds_escapedChars (text : String) :
    lineEnds (escapedChars text) = escapedChars (withLineEnds text) := by
  rw [escapedChars, escapedChars, withLineEnds, String.toList_ofList]
  have escaped_feed : escapedChar '\n' = ['\n'] := by decide
  have escaped_return : escapedChar '\r' = ['\r'] := by decide
  fun_induction lineEnds text.toList with
  | case1 rest ih =>
    rw [List.flatMap_cons, List.flatMap_cons, List.flatMap_cons, escaped_feed, escaped_return, ← ih]
    exact lineEnds.eq_1 _
  | case2 rest noFeed ih =>
    rw [List.flatMap_cons, List.flatMap_cons, escaped_feed, escaped_return, ← ih]
    refine lineEnds_return ?_
    cases rest with
    | nil => decide
    | cons c more => exact head?_escapedChar_ne (fun eq => noFeed more (congrArg (· :: more) eq)) _
  | case3 c rest _ noReturn ih =>
    rw [List.flatMap_cons, lineEnds_append_of_not_mem (return_not_mem_escapedChar noReturn), ih,
      List.flatMap_cons]
  | case4 => rfl

theorem lineEnds_escapedChars_append (text : String) {rest : List Char}
    (begins : rest.head? ≠ some '\n') :
    lineEnds (escapedChars text ++ rest) = escapedChars (withLineEnds text) ++ lineEnds rest := by
  rw [lineEnds_append _ begins, lineEnds_escapedChars]

namespace Heading

theorem return_not_mem_name (word : Word) : '\r' ∉ word.text.toList := fun mem =>
  absurd (word.isLower_of_mem mem) (by decide)

theorem lineEnds_fieldsChars (fields : List (Word × String)) (rest : List Char) :
    lineEnds (fieldsChars fields ++ rest) =
      fieldsChars (fields.map fun field => (field.1, withLineEnds field.2)) ++ lineEnds rest := by
  induction fields with
  | nil => rfl
  | cons field others ih =>
    obtain ⟨name, value⟩ := field
    rw [fieldsChars_cons, List.map_cons, fieldsChars_cons, lineEnds_cons (by decide),
      lineEnds_append_of_not_mem (return_not_mem_name name), lineEnds_cons (by decide),
      lineEnds_cons (by decide), lineEnds_escapedChars_append value (by simp),
      lineEnds_cons (by decide), ih]

theorem lineEnds_front (heading : Heading) (rest : List Char) :
    lineEnds (heading.front ++ rest) = (heading.map withLineEnds).front ++ lineEnds rest := by
  rw [front, front, List.append_assoc, List.cons_append, lineEnds_cons (by decide),
    lineEnds_append_of_not_mem (return_not_mem_name heading.name), lineEnds_fieldsChars]
  simp [Heading.map]

theorem lineEnds_opening (heading : Heading) (rest : List Char) :
    lineEnds (heading.opening.chars ++ rest) =
      (heading.map withLineEnds).opening.chars ++ lineEnds rest := by
  rw [chars_opening, chars_opening, List.append_assoc, lineEnds_front, List.append_assoc]
  exact congrArg _ (lineEnds_append_of_not_mem (by decide) rest)

theorem lineEnds_single (heading : Heading) (rest : List Char) :
    lineEnds (heading.single.chars ++ rest) =
      (heading.map withLineEnds).single.chars ++ lineEnds rest := by
  rw [chars_single, chars_single, List.append_assoc, lineEnds_front, List.append_assoc]
  exact congrArg _ (lineEnds_append_of_not_mem (by decide) rest)

theorem lineEnds_closing (heading : Heading) (rest : List Char) :
    lineEnds (heading.closing.chars ++ rest) =
      (heading.map withLineEnds).closing.chars ++ lineEnds rest := by
  refine lineEnds_append_of_not_mem ?_ rest
  rw [chars_closing]
  simp [return_not_mem_name]

end Heading

theorem IsGap.lineEnds_append {gap : List Char} (isGap : IsGap gap) (rest : List Char) :
    lineEnds (gap ++ rest) = gap ++ lineEnds rest := by
  refine lineEnds_append_of_not_mem (fun mem => ?_) rest
  exact absurd (isGap.eq_or_eq_of_mem _ mem) (by decide)

mutual

/-- With other line ends, a text that writes a sheet writes the sheet with such strings. -/
theorem Sheet.Writes.exists_lineEnds {sheet : Sheet} {text : List Char} (writes : sheet.Writes text) :
    ∃ text', (sheet.map withLineEnds withLineEnds).Writes text' ∧
      ∀ rest, lineEnds (text ++ rest) = text' ++ lineEnds rest := by
  match sheet with
  | .leaf heading none =>
    rw [Sheet.Writes] at writes
    subst writes
    exact ⟨_, Sheet.writes_empty _, heading.lineEnds_single⟩
  | .leaf heading (some content) =>
    rw [Sheet.Writes] at writes
    subst writes
    refine ⟨_, Sheet.writes_text _ _, fun rest => ?_⟩
    have behind : (heading.closing.chars ++ rest).head? ≠ some '\n' := by
      simp [Heading.chars_closing]
    simp only [List.append_assoc, heading.lineEnds_opening, lineEnds_escapedChars_append _ behind,
      heading.lineEnds_closing]
  | .branch heading first rest =>
    rw [Sheet.Writes] at writes
    obtain ⟨lead, head, tail, last, front, here, behind, back, rfl⟩ := writes
    obtain ⟨head', firstWrites, headEnds⟩ := Sheet.Writes.exists_lineEnds here
    obtain ⟨tail', restWrites, tailEnds⟩ := WritesAll.exists_lineEnds behind
    refine ⟨_, Sheet.writes_branch _ front firstWrites restWrites back, fun rest => ?_⟩
    simp only [List.append_assoc, heading.lineEnds_opening, front.lineEnds_append, headEnds, tailEnds,
      back.lineEnds_append, heading.lineEnds_closing]

theorem WritesAll.exists_lineEnds {sheets : List Sheet} {text : List Char}
    (writes : WritesAll sheets text) :
    ∃ text', WritesAll (mapAll withLineEnds withLineEnds sheets) text' ∧
      ∀ rest, lineEnds (text ++ rest) = text' ++ lineEnds rest := by
  match sheets with
  | [] =>
    rw [WritesAll] at writes
    subst writes
    exact ⟨[], writesAll_nil, fun _ => rfl⟩
  | sheet :: others =>
    rw [WritesAll] at writes
    obtain ⟨lead, head, tail, front, here, behind, rfl⟩ := writes
    obtain ⟨head', sheetWrites, headEnds⟩ := Sheet.Writes.exists_lineEnds here
    obtain ⟨tail', othersWrite, tailEnds⟩ := WritesAll.exists_lineEnds behind
    refine ⟨_, writesAll_cons front sheetWrites othersWrite, fun rest => ?_⟩
    simp only [List.append_assoc, front.lineEnds_append, headEnds, tailEnds]

end

end RelaxDoc.Xml
