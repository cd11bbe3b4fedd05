import RelaxDoc.Proofs.Xml.Escaping
import RelaxDoc.Proofs.Xml.Sheet

/-! No text writes two sheets. Reading from the front, the name of a tag ends at a space or at the
end of the tag, the value of an attribute at its quotation mark, and a text at the next tag; what
stands in them holds none of these characters. -/
namespace RelaxDoc.Xml

/-- Two equal texts that begin with a stretch of characters that satisfy `p` and a character that
does not have the same stretch. -/
theorem stretch_unique {p : Char → Prop} {one other more others : List Char} {c d : Char}
    (inOne : ∀ x ∈ one, p x) (inOther : ∀ x ∈ other, p x) (endOne : ¬p c) (endOther : ¬p d)
    (same : one ++ c :: more = other ++ d :: others) : one = other ∧ c = d ∧ more = others := by
  induction one generalizing other with
  | nil =>
    cases other with
    | nil => simpa using same
    | cons x rest =>
      have eq : c = x := (List.cons.inj same).1
      exact absurd (eq ▸ inOther x List.mem_cons_self) endOne
  | cons x rest ih =>
    cases other with
    | nil =>
      have eq : x = d := (List.cons.inj same).1
      exact absurd (eq ▸ inOne x List.mem_cons_self) endOther
    | cons y others =>
      obtain ⟨rfl, tail⟩ := List.cons.inj same
      obtain ⟨rfl, ends⟩ := ih (fun z mem => inOne z (List.mem_cons_of_mem _ mem))
        (fun z mem => inOther z (List.mem_cons_of_mem _ mem)) tail
      exact ⟨rfl, ends⟩

theorem escapedChars_unique {mark : Char} (plain : ∀ text, mark ∉ escapedChars text)
    {one other : String} {more others : List Char}
    (same : escapedChars one ++ mark :: more = escapedChars other ++ mark :: others) :
    one = other ∧ more = others := by
  have not_mark (text : String) : ∀ c ∈ escapedChars text, c ≠ mark :=
    fun c mem eq => plain text (eq ▸ mem)
  obtain ⟨texts, -, behind⟩ := stretch_unique (p := (· ≠ mark)) (not_mark one) (not_mark other)
    (not_not_intro rfl) (not_not_intro rfl) same
  exact ⟨escapedChars_injective texts, behind⟩

theorem Word.unique {one other : Word} {more others : List Char} {c d : Char}
    (endOne : c.isLower = false) (endOther : d.isLower = false)
    (same : one.text.toList ++ c :: more = other.text.toList ++ d :: others) :
    one = other ∧ c = d ∧ more = others := by
  obtain ⟨names, behind⟩ := stretch_unique (fun _ => one.isLower_of_mem)
    (fun _ => other.isLower_of_mem) (Bool.eq_false_iff.1 endOne) (Bool.eq_false_iff.1 endOther) same
  exact ⟨Word.ext (String.toList_inj.1 names), behind⟩

/-- The end of a tag: a closing bracket, or a slash that stands in front of one. -/
def IsTagEnd (cs : List Char) : Prop := ∃ c more, cs = c :: more ∧ (c = '>' ∨ c = '/')

theorem isTagEnd_bracket (more : List Char) : IsTagEnd ('>' :: more) := ⟨_, _, rfl, .inl rfl⟩

theorem isTagEnd_slash (more : List Char) : IsTagEnd ('/' :: more) := ⟨_, _, rfl, .inr rfl⟩

namespace Heading

/-- The text of the attributes. -/
def fieldsChars (fields : List (Word × String)) : List Char :=
  fields.flatMap fun field => Field.chars ⟨field.1.text, field.2⟩

theorem fieldsChars_cons (name : Word) (value : String) (rest : List (Word × String))
    (more : List Char) : fieldsChars ((name, value) :: rest) ++ more =
      ' ' :: (name.text.toList ++
        '=' :: '"' :: (escapedChars value ++ '"' :: (fieldsChars rest ++ more))) := by
  simp [fieldsChars, Field.chars]

/-- The text of a tag up to its end. -/
def front (heading : Heading) : List Char :=
  '<' :: heading.name.text.toList ++ fieldsChars heading.fields

theorem flatMap_written (heading : Heading) :
    heading.written.flatMap Field.chars = fieldsChars heading.fields := by
  rw [written, List.flatMap_map, fieldsChars]

theorem chars_opening (heading : Heading) : heading.opening.chars = heading.front ++ ['>'] := by
  rw [front, ← flatMap_written]
  rfl

theorem chars_single (heading : Heading) : heading.single.chars = heading.front ++ ['/', '>'] := by
  rw [front, ← flatMap_written]
  rfl

theorem chars_closing (heading : Heading) :
    heading.closing.chars = '<' :: '/' :: heading.name.text.toList ++ ['>'] := rfl

theorem fieldsChars_unique {one other : List (Word × String)} {more others : List Char}
    (endOne : IsTagEnd more) (endOther : IsTagEnd others)
    (same : fieldsChars one ++ more = fieldsChars other ++ others) :
    one = other ∧ more = others := by
  -- An attribute begins with a space, which no end of a tag does.
  have not_space {cs rest : List Char} (ends : IsTagEnd cs) : cs ≠ ' ' :: rest := by
    rintro rfl
    obtain ⟨c, more, eq, rfl | rfl⟩ := ends <;> simp at eq
  induction one generalizing other with
  | nil =>
    cases other with
    | nil => exact ⟨rfl, same⟩
    | cons field rest =>
      rw [fieldsChars_cons] at same
      exact absurd same (not_space endOne)
  | cons field rest ih =>
    obtain ⟨name, value⟩ := field
    cases other with
    | nil =>
      rw [fieldsChars_cons] at same
      exact absurd same.symm (not_space endOther)
    | cons field' rest' =>
      obtain ⟨name', value'⟩ := field'
      rw [fieldsChars_cons, fieldsChars_cons] at same
      obtain ⟨rfl, -, behind⟩ := Word.unique (by decide) (by decide) (List.cons.inj same).2
      obtain ⟨rfl, further⟩ := escapedChars_unique (fun text => (not_mem_escapedChars text).2.2)
        (List.cons.inj behind).2
      obtain ⟨rfl, ends⟩ := ih further
      exact ⟨rfl, ends⟩

/-- Behind the name of a tag comes a space or the end of the tag. -/
theorem exists_cons_fieldsChars (fields : List (Word × String)) {cs : List Char} (ends : IsTagEnd cs) :
    ∃ c ∈ [' ', '>', '/'], ∃ rest, fieldsChars fields ++ cs = c :: rest := by
  cases fields with
  | nil =>
    obtain ⟨c, rest, rfl, rfl | rfl⟩ := ends
    · exact ⟨'>', by simp, rest, rfl⟩
    · exact ⟨'/', by simp, rest, rfl⟩
  | cons field rest => exact ⟨' ', by simp, _, fieldsChars_cons ..⟩

/-- What a text says in front of the end of a tag is said by one heading only. -/
theorem front_unique {one other : Heading} {more others : List Char} (endOne : IsTagEnd more)
    (endOther : IsTagEnd others) (same : one.front ++ more = other.front ++ others) :
    one = other ∧ more = others := by
  have noLetter : ∀ c ∈ [' ', '>', '/'], c.isLower = false :=
    forall_mem_of_all (by decide)
  obtain ⟨c, mem, rest, eq⟩ := exists_cons_fieldsChars one.fields endOne
  obtain ⟨c', mem', rest', eq'⟩ := exists_cons_fieldsChars other.fields endOther
  simp only [front, List.cons_append, List.append_assoc, eq, eq', List.cons.injEq, true_and] at same
  obtain ⟨names, rfl, rfl⟩ := Word.unique (noLetter c mem) (noLetter c' mem') same
  obtain ⟨fields, ends⟩ := fieldsChars_unique endOne endOther (eq.trans eq'.symm)
  exact ⟨Heading.ext names fields, ends⟩

theorem opening_unique {one other : Heading} {more others : List Char}
    (same : one.opening.chars ++ more = other.opening.chars ++ others) :
    one = other ∧ more = others := by
  rw [chars_opening, chars_opening, List.append_assoc, List.append_assoc] at same
  obtain ⟨headings, behind⟩ := front_unique (isTagEnd_bracket _) (isTagEnd_bracket _) same
  exact ⟨headings, List.cons.inj behind |>.2⟩

theorem single_unique {one other : Heading} {more others : List Char}
    (same : one.single.chars ++ more = other.single.chars ++ others) :
    one = other ∧ more = others := by
  rw [chars_single, chars_single, List.append_assoc, List.append_assoc] at same
  obtain ⟨headings, behind⟩ := front_unique (isTagEnd_slash _) (isTagEnd_slash _) same
  exact ⟨headings, (List.cons.inj (List.cons.inj behind).2).2⟩

theorem single_ne_opening (one other : Heading) (more others : List Char) :
    one.single.chars ++ more ≠ other.opening.chars ++ others := by
  intro same
  rw [chars_single, chars_opening, List.append_assoc, List.append_assoc] at same
  have behind := (front_unique (isTagEnd_slash _) (isTagEnd_bracket _) same).2
  exact absurd (List.cons.inj behind).1 (by decide)

end Heading

/-- A text that begins with a start tag. -/
def BeginsTag (cs : List Char) : Prop := ∃ c rest, cs = '<' :: c :: rest ∧ c.isLower = true

theorem Heading.beginsTag_front (heading : Heading) (more : List Char) :
    BeginsTag (heading.front ++ more) := by
  obtain ⟨c, rest, eq⟩ := List.exists_cons_of_ne_nil heading.name.filled
  refine ⟨c, rest ++ fieldsChars heading.fields ++ more, by simp [front, eq], ?_⟩
  exact heading.name.isLower_of_mem (eq ▸ List.mem_cons_self)

theorem Sheet.Writes.beginsTag {sheet : Sheet} {text : List Char} (writes : sheet.Writes text)
    (more : List Char) : BeginsTag (text ++ more) := by
  match sheet with
  | .leaf heading none =>
    rw [Sheet.Writes] at writes
    rw [writes, Heading.chars_single, List.append_assoc]
    exact heading.beginsTag_front _
  | .leaf heading (some content) =>
    rw [Sheet.Writes] at writes
    simp only [writes, Heading.chars_opening, List.append_assoc]
    exact heading.beginsTag_front _
  | .branch heading first rest =>
    rw [Sheet.Writes] at writes
    obtain ⟨lead, head, tail, last, -, -, -, -, rfl⟩ := writes
    simp only [Heading.chars_opening, List.append_assoc]
    exact heading.beginsTag_front _

theorem IsGap.eq_or_eq_of_mem {gap : List Char} (isGap : IsGap gap) :
    ∀ c ∈ gap, c = '\n' ∨ c = ' ' := by
  rcases isGap with rfl | ⟨width, rfl⟩
  · simp
  · simp only [List.mem_cons, List.mem_replicate]
    rintro c (rfl | ⟨-, rfl⟩)
    · exact .inl rfl
    · exact .inr rfl

theorem IsGap.not_bracket {gap : List Char} (isGap : IsGap gap) : ∀ c ∈ gap, c ≠ '<' := by
  intro c mem
  rcases isGap.eq_or_eq_of_mem c mem with rfl | rfl <;> decide

theorem bracket_unique {one other more others : List Char} (inOne : ∀ c ∈ one, c ≠ '<')
    (inOther : ∀ c ∈ other, c ≠ '<') (same : one ++ '<' :: more = other ++ '<' :: others) :
    one = other ∧ more = others := by
  obtain ⟨eq, -, behind⟩ := stretch_unique (p := (· ≠ '<')) inOne inOther (not_not_intro rfl)
    (not_not_intro rfl) same
  exact ⟨eq, behind⟩

theorem gap_unique {gap gap' more others : List Char} (isGap : IsGap gap) (isGap' : IsGap gap')
    (begins : BeginsTag more) (begins' : BeginsTag others)
    (same : gap ++ more = gap' ++ others) : gap = gap' ∧ more = others := by
  obtain ⟨c, rest, rfl, -⟩ := begins
  obtain ⟨c', rest', rfl, -⟩ := begins'
  obtain ⟨eq, behind⟩ := bracket_unique isGap.not_bracket isGap'.not_bracket same
  exact ⟨eq, congrArg _ behind⟩

/-- No start tag stands where an end tag does. -/
theorem not_beginsTag_of_endTag {one other more others : List Char} (inOne : ∀ c ∈ one, c ≠ '<')
    (inOther : ∀ c ∈ other, c ≠ '<') (begins : BeginsTag others) :
    one ++ '<' :: '/' :: more ≠ other ++ others := by
  obtain ⟨c, rest, rfl, letter⟩ := begins
  intro same
  have behind := (bracket_unique inOne inOther same).2
  rw [← (List.cons.inj behind).1] at letter
  exact absurd letter (by decide)

theorem not_bracket_escapedChars (text : String) : ∀ c ∈ escapedChars text, c ≠ '<' :=
  fun _ mem eq => (not_mem_escapedChars text).1 (eq ▸ mem)

/-- A text between tags is not taken for an element behind a gap. -/
theorem text_ne_element {heading other : Heading} {text : String} {lead more others : List Char}
    (front : IsGap lead) (begins : BeginsTag others) :
    heading.opening.chars ++ (escapedChars text ++ (heading.closing.chars ++ more)) ≠
      other.opening.chars ++ (lead ++ others) := by
  intro same
  have inside := (Heading.opening_unique same).2
  exact not_beginsTag_of_endTag (not_bracket_escapedChars text) front.not_bracket begins inside

/-- A text that begins with an element without content begins with no other. -/
theorem Sheet.empty_unique {heading : Heading} {other : Sheet} {text more others : List Char}
    (writes : other.Writes text) (same : heading.single.chars ++ more = text ++ others) :
    leaf heading none = other ∧ more = others := by
  match other with
  | .leaf heading' none =>
    rw [Sheet.Writes] at writes
    subst writes
    obtain ⟨rfl, behind⟩ := Heading.single_unique same
    exact ⟨rfl, behind⟩
  | .leaf heading' (some content) =>
    rw [Sheet.Writes] at writes
    simp only [writes, List.append_assoc] at same
    exact (Heading.single_ne_opening _ _ _ _ same).elim
  | .branch heading' first rest =>
    rw [Sheet.Writes] at writes
    obtain ⟨lead, head, tail, last, -, -, -, -, rfl⟩ := writes
    simp only [List.append_assoc] at same
    exact (Heading.single_ne_opening _ _ _ _ same).elim

/-- A text that begins with an element with a text in it begins with no other. -/
theorem Sheet.text_unique {heading : Heading} {content : String} {other : Sheet}
    {text more others : List Char} (writes : other.Writes text)
    (same : heading.opening.chars ++ (escapedChars content ++ (heading.closing.chars ++ more)) =
      text ++ others) :
    leaf heading (some content) = other ∧ more = others := by
  match other with
  | .leaf heading' none =>
    rw [Sheet.Writes] at writes
    subst writes
    exact (Heading.single_ne_opening _ _ _ _ same.symm).elim
  | .leaf heading' (some content') =>
    rw [Sheet.Writes] at writes
    simp only [writes, List.append_assoc] at same
    obtain ⟨rfl, inside⟩ := Heading.opening_unique same
    obtain ⟨rfl, -⟩ := escapedChars_unique (fun text => (not_mem_escapedChars text).1) inside
    exact ⟨rfl, List.append_cancel_left (List.append_cancel_left inside)⟩
  | .branch heading' first rest =>
    rw [Sheet.Writes] at writes
    obtain ⟨lead, head, tail, last, front, here, -, -, rfl⟩ := writes
    simp only [List.append_assoc] at same
    exact (text_ne_element front (here.beginsTag _) same).elim

mutual

/-- A text that begins with two sheets begins with one, and the same text is left behind it. -/
theorem Sheet.writes_unique {one other : Sheet} {text text' more others : List Char}
    (writes : one.Writes text) (writes' : other.Writes text')
    (same : text ++ more = text' ++ others) : one = other ∧ more = others := by
  match one, other with
  | .leaf heading none, other =>
    rw [Sheet.Writes] at writes
    exact Sheet.empty_unique writes' (writes ▸ same)
  | .leaf heading (some content), other =>
    rw [Sheet.Writes] at writes
    simp only [writes, List.append_assoc] at same
    exact Sheet.text_unique writes' same
  | one, .leaf heading none =>
    rw [Sheet.Writes] at writes'
    obtain ⟨eq, behind⟩ := Sheet.empty_unique writes (writes' ▸ same.symm)
    exact ⟨eq.symm, behind.symm⟩
  | one, .leaf heading (some content) =>
    rw [Sheet.Writes] at writes'
    simp only [writes', List.append_assoc] at same
    obtain ⟨eq, behind⟩ := Sheet.text_unique writes same.symm
    exact ⟨eq.symm, behind.symm⟩
  | .branch heading first rest, .branch heading' first' rest' =>
    rw [Sheet.Writes] at writes
    rw [Sheet.Writes] at writes'
    obtain ⟨lead, head, tail, last, front, here, behind, back, rfl⟩ := writes
    obtain ⟨lead', head', tail', last', front', here', behind', back', rfl⟩ := writes'
    simp only [List.append_assoc] at same
    obtain ⟨rfl, inside⟩ := Heading.opening_unique same
    obtain ⟨-, further⟩ := gap_unique front front' (here.beginsTag _) (here'.beginsTag _) inside
    obtain ⟨rfl, others⟩ := first.writes_unique here here' further
    obtain ⟨rfl, ends⟩ := writesAll_unique behind behind' back back' others
    exact ⟨rfl, List.append_cancel_left ends⟩

/-- The same for sheets in front of an end tag. -/
theorem writesAll_unique {one other : List Sheet} {text text' gap gap' more others : List Char}
    (writes : WritesAll one text) (writes' : WritesAll other text') (back : IsGap gap)
    (back' : IsGap gap')
    (same : text ++ (gap ++ '<' :: '/' :: more) = text' ++ (gap' ++ '<' :: '/' :: others)) :
    one = other ∧ more = others := by
  match one, other with
  | [], [] =>
    rw [WritesAll] at writes
    rw [WritesAll] at writes'
    subst writes writes'
    obtain ⟨-, behind⟩ := bracket_unique back.not_bracket back'.not_bracket same
    exact ⟨rfl, (List.cons.inj behind).2⟩
  | [], sheet :: rest =>
    rw [WritesAll] at writes
    rw [WritesAll] at writes'
    obtain ⟨lead, head, tail, front, here, -, rfl⟩ := writes'
    subst writes
    simp only [List.append_assoc, List.nil_append] at same
    exact (not_beginsTag_of_endTag back.not_bracket front.not_bracket (here.beginsTag _) same).elim
  | sheet :: rest, [] =>
    rw [WritesAll] at writes
    rw [WritesAll] at writes'
    obtain ⟨lead, head, tail, front, here, -, rfl⟩ := writes
    subst writes'
    simp only [List.append_assoc, List.nil_append] at same
    exact (not_beginsTag_of_endTag back'.not_bracket front.not_bracket (here.beginsTag _) same.symm).elim
  | sheet :: rest, sheet' :: rest' =>
    rw [WritesAll] at writes
    rw [WritesAll] at writes'
    obtain ⟨lead, head, tail, front, here, behind, rfl⟩ := writes
    obtain ⟨lead', head', tail', front', here', behind', rfl⟩ := writes'
    simp only [List.append_assoc] at same
    obtain ⟨-, further⟩ := gap_unique front front' (here.beginsTag _) (here'.beginsTag _) same
    obtain ⟨rfl, others⟩ := sheet.writes_unique here here' further
    obtain ⟨rfl, ends⟩ := writesAll_unique behind behind' back back' others
    exact ⟨rfl, ends⟩

end

/-- No text writes two sheets. -/
theorem Sheet.Writes.unique {one other : Sheet} {text : List Char} (writes : one.Writes text)
    (writes' : other.Writes text) : one = other :=
  (Sheet.writes_unique writes writes' (Eq.refl (text ++ []))).1

end RelaxDoc.Xml
