import RelaxDoc.Proofs.Xml.Scanning

/-! The tokens of a sheet. Scanning a text that writes a sheet gives tokens of it, wherever the text
stands. -/
namespace RelaxDoc.Xml

open Scanner

mutual

/-- The tokens that texts of a sheet consist of: its tags and texts, with gaps as character data. -/
def Sheet.HasTokens : Sheet → List Token → Prop
  | .leaf heading none, tokens => tokens = [tagToken heading .closed]
  | .leaf heading (some text), tokens =>
    tokens = tagToken heading .opened :: charactersOf (escapedChars text) ++ [endToken heading]
  | .branch heading first rest, tokens => ∃ lead head tail last, IsGap lead ∧ first.HasTokens head ∧
    HaveTokens rest tail ∧ IsGap last ∧ tokens = tagToken heading .opened ::
      (charactersOf lead ++ head ++ (tail ++ charactersOf last)) ++ [endToken heading]

/-- The tokens that texts of sheets with gaps in front of them consist of. -/
def HaveTokens : List Sheet → List Token → Prop
  | [], tokens => tokens = []
  | sheet :: rest, tokens => ∃ lead head tail, IsGap lead ∧ sheet.HasTokens head ∧
    HaveTokens rest tail ∧ tokens = charactersOf lead ++ head ++ tail

end

/-- Wherever the text stands in content, it is taken as the tokens. -/
def Enters (text : List Char) (tokens : List Token) : Prop :=
  ∀ level rest behind more, Takes (content level) rest behind more →
    Takes (content level) (text ++ rest) (tokens ++ behind) more

/-- Wherever the text stands in front of a tag, it is taken as the tokens. -/
def Fills (text : List Char) (tokens : List Token) : Prop :=
  ∀ level rest behind more, rest.head? = some '<' → Takes (content level) rest behind more →
    Takes (content level) (text ++ rest) (tokens ++ behind) more

theorem Enters.append {one other : List Char} {tokens others : List Token} (first : Enters one tokens)
    (second : Enters other others) : Enters (one ++ other) (tokens ++ others) := by
  intro level rest behind more takes
  rw [List.append_assoc, List.append_assoc]
  exact first _ _ _ _ (second _ _ _ _ takes)

theorem Enters.append_fills {one other : List Char} {tokens others : List Token}
    (first : Enters one tokens) (second : Fills other others) :
    Fills (one ++ other) (tokens ++ others) := by
  intro level rest behind more begins takes
  rw [List.append_assoc, List.append_assoc]
  exact first _ _ _ _ (second _ _ _ _ begins takes)

/-- A text behind another one that a tag begins. -/
theorem Fills.append {one other : List Char} {tokens others : List Token} (first : Fills one tokens)
    (begins : BeginsTag other) (second : Enters other others) :
    Enters (one ++ other) (tokens ++ others) := by
  intro level rest behind more takes
  rw [List.append_assoc, List.append_assoc]
  refine first _ _ _ _ ?_ (second _ _ _ _ takes)
  obtain ⟨c, _, rfl, -⟩ := begins
  rfl

theorem fills_escapedChars {text : String} (legal : LegalText text) :
    Fills (escapedChars text) (charactersOf (escapedChars text)) := fun _ _ _ _ =>
  takes_content_characters (not_mem_escapedChars text).1 (not_mem_escapedChars text).2.1
    legal.escaped

theorem IsGap.escapedChars_eq {gap : List Char} (isGap : IsGap gap) :
    escapedChars (String.ofList gap) = gap := by
  have plain : ∀ c ∈ (String.ofList gap).toList, c ∉ special := by
    rw [String.toList_ofList]
    intro c mem
    rcases isGap.eq_or_eq_of_mem c mem with rfl | rfl <;> decide
  rw [escapedChars_of_plain plain, String.toList_ofList]

theorem fills_gap {gap : List Char} (isGap : IsGap gap) : Fills gap (charactersOf gap) := by
  have legal : LegalText (String.ofList gap) := by
    rw [LegalText, String.toList_ofList]
    intro c mem
    rcases isGap.eq_or_eq_of_mem c mem with rfl | rfl <;> decide
  have fills := fills_escapedChars legal
  rwa [isGap.escapedChars_eq] at fills

/-- The text is an element, with a content that is taken as tokens wherever the element stands. -/
inductive IsElement : List Char → List Token → Prop
  | single {heading : Heading} (legal : heading.Holds LegalText) :
    IsElement heading.single.chars [tagToken heading .closed]
  | tags {heading : Heading} {inside : List Char} {tokens : List Token}
    (legal : heading.Holds LegalText) (fills : Fills inside tokens) :
    IsElement (heading.opening.chars ++ inside ++ heading.closing.chars)
      (tagToken heading .opened :: tokens ++ [endToken heading])

theorem IsElement.enters {text : List Char} {tokens : List Token} (element : IsElement text tokens) :
    Enters text tokens := by
  intro level rest behind more takes
  cases element with
  | single legal =>
    simp only [Heading.chars_single, Heading.front, List.append_assoc, List.cons_append]
    exact takes_content_closed (takes_markup legal (isTagEnd_slash _) takes_slash) takes
  | tags legal fills =>
    simp only [Heading.chars_opening, Heading.front, Heading.chars_closing, List.append_assoc,
      List.cons_append, List.nil_append]
    refine takes_content_opened (takes_markup legal (isTagEnd_bracket _) takes_bracket) ?_
    exact fills _ _ _ _ rfl (takes_content_ended (takes_endMarkup _) takes)

/-- Behind its opening bracket an element is taken as a root. -/
theorem IsElement.takes_rootElement {text rest : List Char} {tokens : List Token}
    (element : IsElement text tokens) :
    ∃ inner, text = '<' :: inner ∧ Takes rootElement (inner ++ rest) tokens rest := by
  cases element with
  | @single heading legal =>
    refine ⟨heading.name.text.toList ++ (Heading.fieldsChars heading.fields ++ ['/', '>']), ?_, ?_⟩
    · simp [Heading.chars_single, Heading.front]
    · simp only [List.append_assoc]
      refine (takes_writtenName heading.name (stops_at_fields _ (isTagEnd_slash _))).bind ?_
      exact Takes.bind (takes_tagRest legal takes_slash) (takes_pure.bind takes_pure)
  | @tags heading inside tokens legal fills =>
    refine ⟨heading.name.text.toList ++ (Heading.fieldsChars heading.fields ++
      '>' :: (inside ++ heading.closing.chars)), ?_, ?_⟩
    · simp [Heading.chars_opening, Heading.front]
    · simp only [List.append_assoc, Heading.chars_closing, List.cons_append, List.nil_append]
      refine (takes_writtenName heading.name (stops_at_fields _ (isTagEnd_bracket _))).bind ?_
      refine Takes.bind (takes_tagRest legal takes_bracket) ?_
      have content := fills 0 _ _ rest rfl (takes_content_last (takes_endMarkup heading))
      exact Takes.bind content takes_pure

theorem Sheet.hasTokens_branch (heading : Heading) {first : Sheet} {rest : List Sheet}
    {lead last : List Char} {head tail : List Token} (front : IsGap lead) (here : first.HasTokens head)
    (behind : HaveTokens rest tail) (back : IsGap last) :
    (branch heading first rest).HasTokens (tagToken heading .opened ::
      (charactersOf lead ++ head ++ (tail ++ charactersOf last)) ++ [endToken heading]) := by
  rw [HasTokens]
  exact ⟨lead, head, tail, last, front, here, behind, back, rfl⟩

theorem haveTokens_cons {sheet : Sheet} {rest : List Sheet} {lead : List Char}
    {head tail : List Token} (front : IsGap lead) (here : sheet.HasTokens head)
    (behind : HaveTokens rest tail) :
    HaveTokens (sheet :: rest) (charactersOf lead ++ head ++ tail) := by
  rw [HaveTokens]
  exact ⟨lead, head, tail, front, here, behind, rfl⟩

mutual

/-- A text that writes a sheet is taken as tokens of the sheet. -/
theorem Sheet.Writes.exists_tokens {sheet : Sheet} {text : List Char} (writes : sheet.Writes text)
    (legal : sheet.Holds LegalText LegalText) :
    ∃ tokens, sheet.HasTokens tokens ∧ IsElement text tokens := by
  match sheet with
  | .leaf heading none =>
    rw [Sheet.Writes] at writes
    rw [Sheet.Holds] at legal
    subst writes
    exact ⟨_, by rw [Sheet.HasTokens], IsElement.single legal⟩
  | .leaf heading (some content) =>
    rw [Sheet.Writes] at writes
    rw [Sheet.Holds] at legal
    subst writes
    exact ⟨_, by rw [Sheet.HasTokens], IsElement.tags legal.1 (fills_escapedChars legal.2)⟩
  | .branch heading first rest =>
    rw [Sheet.Writes] at writes
    rw [Sheet.Holds] at legal
    obtain ⟨lead, head, tail, last, front, here, behind, back, rfl⟩ := writes
    obtain ⟨headTokens, firstTokens, element⟩ := Sheet.Writes.exists_tokens here legal.2.1
    obtain ⟨tailTokens, restTokens, enters⟩ := WritesAll.exists_tokens behind legal.2.2
    have begins := here.beginsTag []
    rw [List.append_nil] at begins
    have fills := ((fills_gap front).append begins element.enters).append_fills
      (enters.append_fills (fills_gap back))
    refine ⟨_, Sheet.hasTokens_branch heading front firstTokens restTokens back, ?_⟩
    simpa only [List.append_assoc] using IsElement.tags legal.1 fills

theorem WritesAll.exists_tokens {sheets : List Sheet} {text : List Char}
    (writes : WritesAll sheets text) (legal : HoldsAll LegalText LegalText sheets) :
    ∃ tokens, HaveTokens sheets tokens ∧ Enters text tokens := by
  match sheets with
  | [] =>
    rw [WritesAll] at writes
    subst writes
    exact ⟨[], by rw [HaveTokens], fun _ _ _ _ takes => takes⟩
  | sheet :: rest =>
    rw [WritesAll] at writes
    rw [HoldsAll] at legal
    obtain ⟨lead, head, tail, front, here, behind, rfl⟩ := writes
    obtain ⟨headTokens, sheetTokens, element⟩ := Sheet.Writes.exists_tokens here legal.1
    obtain ⟨tailTokens, restTokens, enters⟩ := WritesAll.exists_tokens behind legal.2
    have begins := here.beginsTag []
    rw [List.append_nil] at begins
    exact ⟨_, haveTokens_cons front sheetTokens restTokens,
      ((fills_gap front).append begins element.enters).append enters⟩

end

/-- Markup other than a start tag is told by the character behind the bracket. -/
theorem not_isPrefixOf_of_beginsTag {text mark : List Char} {c : Char} (begins : BeginsTag text)
    (other : c.isLower = false) : ('<' :: c :: mark).isPrefixOf text = false := by
  obtain ⟨d, rest, rfl, letter⟩ := begins
  rw [Bool.eq_false_iff, ne_eq, List.isPrefixOf_iff_prefix]
  rintro ⟨more, same⟩
  obtain rfl : c = d := (List.cons.inj (List.cons.inj same).2).1
  exact Bool.false_ne_true (other.symm.trans letter)

theorem takes_misc_begins {text : List Char} (begins : BeginsTag text) : Takes misc text () text := by
  obtain ⟨c, rest, rfl, letter⟩ := begins
  refine ⟨Nat.le_refl _, ?_⟩
  rw [misc]
  · rfl
  · rintro _ - ⟨⟩
    exact absurd letter (by decide)
  · rintro _ - ⟨⟩
    exact absurd letter (by decide)

theorem takes_misc_space {c : Char} {rest mid : List Char} (space : isSpace c = true)
    (behind : Takes misc rest () mid) : Takes misc (c :: rest) () mid := by
  obtain ⟨le, behind⟩ := behind
  refine ⟨Nat.le_succ_of_le le, ?_⟩
  rw [misc, if_pos space, behind]
  · rfl
  · rintro _ rfl
    exact absurd space (by decide)
  · rintro _ rfl
    exact absurd space (by decide)

theorem takes_misc_gap {gap text : List Char} (isGap : IsGap gap) (begins : BeginsTag text) :
    Takes misc (gap ++ text) () text := by
  have spaces (width : Nat) : Takes misc (List.replicate width ' ' ++ text) () text := by
    induction width with
    | zero => exact takes_misc_begins begins
    | succ width ih => exact takes_misc_space rfl ih
  rcases isGap with rfl | ⟨width, rfl⟩
  · exact takes_misc_begins begins
  · exact takes_misc_space rfl (spaces width)

/-- The rest of a declaration behind its opening. -/
def declarationTail : List Char :=
  [' ', 'v', 'e', 'r', 's', 'i', 'o', 'n', '=', '"', '1', '.', '0', '"',
    ' ', 'e', 'n', 'c', 'o', 'd', 'i', 'n', 'g', '=', '"', 'U', 'T', 'F', '-', '8', '"', '?', '>']

theorem chars_declaration : Markup.declaration.chars = "<?xml".toList ++ declarationTail := by decide

theorem takes_declarationRest (rest : List Char) :
    Takes declarationRest (declarationTail ++ rest) () rest := ⟨by simp, by rfl⟩

theorem takes_misc_nil : Takes misc [] () [] := ⟨Nat.le_refl _, misc.eq_4⟩

/-- What a document takes behind a declaration, if there is one. -/
def rootOutline : Scanner Outline := do
  misc
  let entities ← if ← accept "<!DOCTYPE" then doctypeRest else pure []
  misc
  let tokens ← if ← accept "<" then rootElement else pure []
  misc
  require (← peek).isNone .unknownMarkup
  return ⟨entities, tokens⟩

theorem takes_rootOutline {gap text : List Char} {tokens : List Token} (isGap : IsGap gap)
    (begins : BeginsTag text) (element : IsElement text tokens) :
    Takes rootOutline (gap ++ text) ⟨[], tokens⟩ [] := by
  have noDoctype : "<!DOCTYPE".toList.isPrefixOf text = false :=
    not_isPrefixOf_of_beginsTag begins (by decide)
  obtain ⟨inner, rfl, root⟩ : ∃ inner, text = '<' :: inner ∧
    Takes rootElement (inner ++ []) tokens [] := element.takes_rootElement
  rw [List.append_nil] at root
  refine Takes.bind (takes_misc_gap isGap begins) ?_
  refine Takes.bind (takes_accept_not noDoctype) (takes_pure.bind ?_)
  refine Takes.bind (takes_misc_begins begins) ?_
  refine Takes.bind (takes_accept "<") (root.bind ?_)
  exact Takes.bind takes_misc_nil (Takes.bind takes_peek ((takes_require rfl).bind takes_pure))

theorem document_eq : document = (do
    if ← sees "<?xml " then
      expect "<?xml"
      declarationRest
    rootOutline) := rfl

theorem takes_document (declaration : Bool) {gap text : List Char} {tokens : List Token}
    (isGap : IsGap gap) (begins : BeginsTag text) (element : IsElement text tokens) :
    Takes document ((if declaration then Markup.declaration.chars ++ gap else []) ++ text)
      ⟨[], tokens⟩ [] := by
  rw [document_eq]
  refine (takes_sees _).bind ?_
  cases declaration with
  | true =>
    have sees : "<?xml ".toList.isPrefixOf (Markup.declaration.chars ++ gap ++ text) = true := by
      rw [chars_declaration]
      rfl
    rw [if_pos rfl, if_pos sees, chars_declaration, List.append_assoc, List.append_assoc]
    refine (takes_expect "<?xml").bind ((takes_declarationRest _).bind ?_)
    exact takes_rootOutline isGap begins element
  | false =>
    have sees : "<?xml ".toList.isPrefixOf text = false :=
      not_isPrefixOf_of_beginsTag begins (by decide)
    rw [if_neg Bool.false_ne_true, List.nil_append, if_neg (Bool.eq_false_iff.1 sees)]
    exact takes_rootOutline isGap_nil begins element

theorem withoutMark_of_parts {declaration : Bool} {gap text : List Char} {whole : String}
    (begins : BeginsTag text)
    (parts : whole.toList = (if declaration then Markup.declaration.chars ++ gap else []) ++ text) :
    withoutMark whole.toList = whole.toList := by
  rw [parts]
  cases declaration with
  | true => rfl
  | false =>
    obtain ⟨c, rest, rfl, -⟩ := begins
    rfl

/-- The outline of a text that is a declaration or nothing, and then a text that writes a sheet. -/
theorem ofText_eq_ok {declaration : Bool} {gap text : List Char} {tokens : List Token} {whole : String}
    (isGap : IsGap gap) (begins : BeginsTag text) (element : IsElement text tokens)
    (parts : whole.toList = (if declaration then Markup.declaration.chars ++ gap else []) ++ text) :
    Outline.ofText whole = .ok ⟨[], tokens⟩ := by
  obtain ⟨le, takes⟩ := takes_document declaration isGap begins element
  rw [Outline.ofText, withoutMark_of_parts begins parts, parts, takes]
  rfl

end RelaxDoc.Xml
