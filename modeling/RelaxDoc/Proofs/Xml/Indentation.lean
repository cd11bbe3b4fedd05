import RelaxDoc.Proofs.Xml.Sheet

/-! What is written for the markup of a sheet writes the sheet. Without indentation there are no gaps;
with it there is one wherever two tags of different elements follow each other, and no other. -/
namespace RelaxDoc.Xml

theorem compactChars_append (one other : List Markup) :
    compactChars (one ++ other) = compactChars one ++ compactChars other :=
  List.flatMap_append

theorem compactChars_singleton (piece : Markup) : compactChars [piece] = piece.chars :=
  List.append_nil _

mutual

/-- The text without gaps writes a sheet. -/
theorem Sheet.writes_compact (sheet : Sheet) : sheet.Writes (compactChars sheet.markup) := by
  match sheet with
  | .leaf heading none =>
    rw [Sheet.markup, compactChars_singleton]
    exact Sheet.writes_empty heading
  | .leaf heading (some text) =>
    have inside : (Markup.text text).chars = escapedChars text := rfl
    simp [Sheet.Writes, Sheet.markup, compactChars, inside]
  | .branch heading first rest =>
    have writes := Sheet.writes_branch heading isGap_nil first.writes_compact
      (writesAll_compact rest) isGap_nil
    rwa [List.nil_append, List.append_nil, ← compactChars_append,
      ← compactChars_singleton heading.opening, ← compactChars_singleton heading.closing,
      ← compactChars_append, ← compactChars_append] at writes

theorem writesAll_compact (sheets : List Sheet) :
    WritesAll sheets (compactChars (markupOfAll sheets)) := by
  match sheets with
  | [] => exact writesAll_nil
  | sheet :: rest =>
    rw [markupOfAll, compactChars_append]
    exact writesAll_cons isGap_nil sheet.writes_compact (writesAll_compact rest)

end

/-- The line break in front of a tag that is inside `depth` elements. -/
def lineBreak (width depth : Nat) : List Char := '\n' :: List.replicate (width * depth) ' '

theorem isGap_lineBreak (width depth : Nat) : IsGap (lineBreak width depth) := isGap_break _

mutual

/-- The text with indentation writes a sheet too. It has its line break in front unless it follows a
text or comes first. -/
theorem Sheet.exists_indented (width depth : Nat) (sheet : Sheet) : ∃ text, sheet.Writes text ∧
    ∀ joined rest, indentedChars width depth joined (sheet.markup ++ rest) =
      (if joined then [] else lineBreak width depth) ++ text ++
        indentedChars width depth false rest := by
  match sheet with
  | .leaf heading none =>
    refine ⟨_, Sheet.writes_empty heading, fun joined rest => ?_⟩
    rw [Sheet.markup]
    cases joined <;> rfl
  | .leaf heading (some text) =>
    refine ⟨_, Sheet.writes_text heading text, fun joined rest => ?_⟩
    have inside : (Markup.text text).chars = escapedChars text := rfl
    cases joined <;>
      simp [Sheet.markup, indentedChars, Heading.opening, Heading.closing, Markup.isText, Markup.level,
        Markup.depthBehind, lineBreak, inside]
  | .branch heading first rest =>
    obtain ⟨head, writes, here⟩ := first.exists_indented width (depth + 1)
    obtain ⟨tail, others, behind⟩ := exists_indentedAll width (depth + 1) rest
    refine ⟨_, Sheet.writes_branch heading (isGap_lineBreak width (depth + 1)) writes others
      (isGap_lineBreak width depth), fun joined rest => ?_⟩
    have inside (pieces : List Markup) :
        indentedChars width (depth + 1) false (first.markup ++ (markupOfAll _ ++ pieces)) = _ :=
      (here false _).trans (congrArg _ (behind pieces))
    cases joined <;>
      simp [Sheet.markup, indentedChars, Heading.opening, Heading.closing, Markup.isText, Markup.level,
        Markup.depthBehind, inside, lineBreak]

theorem exists_indentedAll (width depth : Nat) (sheets : List Sheet) : ∃ text,
    WritesAll sheets text ∧ ∀ rest,
      indentedChars width depth false (markupOfAll sheets ++ rest) =
        text ++ indentedChars width depth false rest := by
  match sheets with
  | [] => exact ⟨[], writesAll_nil, fun rest => by rw [markupOfAll, List.nil_append, List.nil_append]⟩
  | sheet :: others =>
    obtain ⟨head, writes, here⟩ := sheet.exists_indented width depth
    obtain ⟨tail, further, behind⟩ := exists_indentedAll width depth others
    refine ⟨_, writesAll_cons (isGap_lineBreak width depth) writes further, fun rest => ?_⟩
    rw [markupOfAll, List.append_assoc, here, behind]
    simp

end

/-- The text that is written for the markup of a sheet, behind a declaration or not, is a gap and a
text that writes the sheet. Without indentation there is no gap. -/
theorem exists_written (indent : Option Nat) (declaration : Bool) (sheet : Sheet) :
    ∃ gap text, IsGap gap ∧ sheet.Writes text ∧
      (write indent ((if declaration then [.declaration] else []) ++ sheet.markup)).toList =
        (if declaration then Markup.declaration.chars ++ gap else []) ++ text := by
  cases indent with
  | none =>
    refine ⟨[], _, isGap_nil, sheet.writes_compact, ?_⟩
    cases declaration <;> simp [write, compactChars]
  | some width =>
    obtain ⟨text, writes, here⟩ := sheet.exists_indented width 0
    refine ⟨lineBreak width 0, text, isGap_lineBreak width 0, writes, ?_⟩
    have whole (joined : Bool) := here joined []
    simp only [List.append_nil] at whole
    cases declaration <;> simp [write, indentedChars, whole, Markup.isText, Markup.depthBehind]

end RelaxDoc.Xml
