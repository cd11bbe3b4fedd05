import Mathlib.Data.List.TakeWhile
import RelaxDoc.Proofs.Xml.Unambiguous
import RelaxDoc.Xml.Reader

/-! Scanning the texts that write sheets: which tokens their tags are. -/
namespace RelaxDoc.Xml

namespace Scanner

/-- The scanner takes a value from the front of a text and leaves the rest. -/
def Takes {α : Type} (scanner : (input : List Char) → Except Fault (Scanned α input))
    (input : List Char) (value : α) (rest : List Char) : Prop :=
  ∃ le, scanner input = .ok ⟨value, rest, le⟩

section Takes

variable {α β : Type} {input mid rest : List Char}

theorem Takes.bind {scanner : Scanner α} {next : α → Scanner β} {a : α} {b : β}
    (first : Takes scanner input a mid) (second : Takes (next a) mid b rest) :
    Takes (scanner >>= next) input b rest := by
  obtain ⟨le, first⟩ := first
  obtain ⟨le', second⟩ := second
  exact ⟨Nat.le_trans le' le, by simp only [Bind.bind, first, second]; rfl⟩

theorem takes_pure {a : α} : Takes (pure a : Scanner α) input a input := ⟨Nat.le_refl _, rfl⟩

theorem takes_next {c : Char} : Takes next (c :: rest) c rest := ⟨Nat.le_succ _, rfl⟩

theorem takes_require {condition : Bool} {fault : Fault} (holds : condition = true) :
    Takes (require condition fault) input () input := by
  rw [require, if_pos holds]
  exact takes_pure

/-- A stretch of characters ends where the text does, or in front of one that does not belong to it. -/
theorem takes_takeWhile {p : Char → Bool} {one : List Char} (inOne : ∀ c ∈ one, p c = true)
    (ends : ∀ c ∈ rest.head?, p c = false) : Takes (takeWhile p) (one ++ rest) one rest := by
  have none : rest.takeWhile p = [] ∧ rest.dropWhile p = rest := by
    cases rest with
    | nil => exact ⟨rfl, rfl⟩
    | cons c more => simp [ends c rfl]
  have whole : Takes (takeWhile p) (one ++ rest) ((one ++ rest).takeWhile p)
      ((one ++ rest).dropWhile p) := ⟨_, rfl⟩
  rwa [List.takeWhile_append_of_pos inOne, List.dropWhile_append_of_pos inOne, none.1, none.2,
    List.append_nil] at whole

theorem takes_spaces (ends : ∀ c ∈ rest.head?, isSpace c = false) : Takes spaces rest () rest := by
  have none : ∀ c ∈ ([] : List Char), isSpace c = true := nofun
  exact (takes_takeWhile none ends).bind takes_pure

theorem takes_accept (text : String) : Takes (accept text) (text.toList ++ rest) true rest := by
  have isPrefix : text.toList.isPrefixOf (text.toList ++ rest) = true := by simp
  have left : (text.toList ++ rest).drop text.length = rest := by
    rw [← String.length_toList, List.drop_left]
  have le : rest.length ≤ (text.toList ++ rest).length := by simp
  refine ⟨le, ?_⟩
  simp only [accept, isPrefix, if_true, left]

theorem takes_accept_not {text : String} (other : text.toList.isPrefixOf input = false) :
    Takes (accept text) input false input :=
  ⟨Nat.le_refl _, by simp only [accept, other, Bool.false_eq_true, if_false]⟩

theorem takes_peek : Takes peek input input.head? input := ⟨Nat.le_refl _, rfl⟩

theorem takes_sees (text : String) :
    Takes (sees text) input (text.toList.isPrefixOf input) input := ⟨Nat.le_refl _, rfl⟩

theorem takes_expect (text : String) : Takes (expect text) (text.toList ++ rest) () rest :=
  (takes_accept text).bind (takes_require rfl)

theorem takes_quoted {value : List Char} (inside : '"' ∉ value) :
    Takes quoted ('"' :: (value ++ '"' :: rest)) value rest := by
  have inValue : ∀ c ∈ value, (c != '"') = true := by
    intro c mem
    exact bne_iff_ne.2 fun eq => inside (eq ▸ mem)
  refine takes_next.bind ((takes_require rfl).bind ?_)
  exact (takes_takeWhile inValue (by simp)).bind (takes_next.bind takes_pure)

theorem takes_attributeValue {value : List Char} (angle : '<' ∉ value) (quote : '"' ∉ value)
    (legal : IsLegal value) :
    Takes attributeValue ('=' :: '"' :: (value ++ '"' :: rest)) value rest := by
  have none : value.find? (fun c => !isLegal c) = none := by
    rw [List.find?_eq_none]
    intro c mem
    simp [legal c mem]
  have known : (!value.contains '<') = true := by simpa using angle
  refine (takes_spaces (by simp; decide)).bind ((takes_expect "=").bind ?_)
  refine (takes_spaces (by simp; decide)).bind ((takes_quoted quote).bind ?_)
  refine (takes_require known).bind ?_
  rw [none]
  exact takes_pure

end Takes

section Tags

variable {rest : List Char}

theorem isNameStart_of_isLower {c : Char} (lower : c.isLower = true) : isNameStart c = true := by
  obtain ⟨above, below⟩ := Bool.and_eq_true_iff.1 lower
  have bounds : 0x61 ≤ c.toNat ∧ c.toNat ≤ 0x7A :=
    ⟨of_decide_eq_true above, of_decide_eq_true below⟩
  simp [isNameStart, Text.inRanges, nameStartRanges, bounds]

theorem isNameChar_of_isLower {c : Char} (lower : c.isLower = true) : isNameChar c = true := by
  rw [isNameChar, isNameStart_of_isLower lower, Bool.true_or]

/-- A word as a written name. -/
def writtenWord (word : Word) : WrittenName := ⟨"", word.text⟩

theorem ofChars?_word (word : Word) :
    WrittenName.ofChars? word.text.toList = some (writtenWord word) := by
  have notColon : ∀ c ∈ word.text.toList, (c != ':') = true := by
    intro c mem
    have lower := word.isLower_of_mem mem
    refine bne_iff_ne.2 ?_
    rintro rfl
    exact absurd lower (by decide)
  have before : word.text.toList.takeWhile (· != ':') = word.text.toList :=
    List.takeWhile_eq_self_iff.2 notColon
  have behind : word.text.toList.dropWhile (· != ':') = [] := List.dropWhile_eq_nil_iff.2 notColon
  have noColon : word.text.toList.contains ':' = false := by
    simpa using fun mem => by simpa using notColon ':' mem
  have begins : word.text.toList.head?.any isNameStart = true := by
    obtain ⟨c, more, eq⟩ := List.exists_cons_of_ne_nil word.filled
    rw [eq]
    exact isNameStart_of_isLower (word.isLower_of_mem (eq ▸ List.mem_cons_self))
  simp only [WrittenName.ofChars?, before, behind, noColon, begins]
  simp [writtenWord]

theorem takes_writtenNameFrom (word : Word) {first : Char} {more : List Char}
    (letters : word.text.toList = first :: more) (ends : ∀ c ∈ rest.head?, isNameChar c = false) :
    Takes (writtenNameFrom first) (more ++ rest) (writtenWord word) rest := by
  have inWord : ∀ c ∈ first :: more, isNameChar c = true := fun c mem =>
    isNameChar_of_isLower (word.isLower_of_mem (letters ▸ mem))
  refine (takes_require (inWord first List.mem_cons_self)).bind ?_
  refine (takes_takeWhile (fun c mem => inWord c (List.mem_cons_of_mem _ mem)) ends).bind ?_
  rw [← letters, ofChars?_word]
  exact takes_pure

/-- An attribute as it is written. -/
def writtenField (field : Word × String) : WrittenAttribute :=
  ⟨writtenWord field.1, escapedChars field.2⟩

theorem takes_attributeFrom (name : Word) {first : Char} {more value : List Char}
    (letters : name.text.toList = first :: more) (angle : '<' ∉ value) (quote : '"' ∉ value)
    (legal : IsLegal value) :
    Takes (attributeFrom first) (more ++ '=' :: '"' :: (value ++ '"' :: rest))
      ⟨writtenWord name, value⟩ rest :=
  (takes_writtenNameFrom name letters (by simp; decide)).bind
    ((takes_attributeValue angle quote legal).bind takes_pure)

theorem takes_tagRest_space {input : List Char} {spaced : Bool}
    {found : List WrittenAttribute × TagEnd} (behind : Takes (tagRest true) input found rest) :
    Takes (tagRest spaced) (' ' :: input) found rest := by
  obtain ⟨le, behind⟩ := behind
  refine ⟨Nat.le_succ_of_le le, ?_⟩
  rw [tagRest, behind]
  · rfl
  · decide
  · decide

theorem takes_tagRest_attribute {first : Char} {input mid : List Char} {given : WrittenAttribute}
    {others : List WrittenAttribute} {ending : TagEnd} (lower : first.isLower = true)
    (here : Takes (attributeFrom first) input given mid)
    (behind : Takes (tagRest false) mid (others, ending) rest) :
    Takes (tagRest true) (first :: input) (given :: others, ending) rest := by
  obtain ⟨le, here⟩ := here
  obtain ⟨le', behind⟩ := behind
  have other (c : Char) (upper : c.isLower = false) : first ≠ c := fun eq => by
    rw [eq, upper] at lower
    exact Bool.false_ne_true lower
  have noSpace : isSpace first = false := by
    simp [isSpace, other ' ' (by decide), other '\t' (by decide), other '\n' (by decide),
      other '\r' (by decide)]
  refine ⟨Nat.le_succ_of_le (Nat.le_trans le' le), ?_⟩
  rw [tagRest, noSpace, here]
  · simp only [bind, Except.bind, behind]
    rfl
  · exact other '>' (by decide)
  · exact other '/' (by decide)

/-- The attributes of a tag are taken as they are written, and then the end of the tag. -/
theorem takes_tagRest {fields : List (Word × String)} {tail : List Char} {ending : TagEnd}
    (legal : ∀ field ∈ fields, LegalText field.2)
    (ends : Takes (tagRest false) tail ([], ending) rest) :
    Takes (tagRest false) (Heading.fieldsChars fields ++ tail) (fields.map writtenField, ending)
      rest := by
  induction fields with
  | nil => exact ends
  | cons field others ih =>
    obtain ⟨name, value⟩ := field
    obtain ⟨first, more, letters⟩ := List.exists_cons_of_ne_nil name.filled
    rw [Heading.fieldsChars_cons, letters]
    refine takes_tagRest_space (takes_tagRest_attribute ?_ ?_ (ih ?_))
    · exact name.isLower_of_mem (letters ▸ List.mem_cons_self)
    · exact takes_attributeFrom name letters (not_mem_escapedChars value).1
        (not_mem_escapedChars value).2.2 (legal _ List.mem_cons_self).escaped
    · exact fun field mem => legal field (List.mem_cons_of_mem _ mem)

theorem takes_slash : Takes (tagRest false) ('/' :: '>' :: rest) ([], .closed) rest :=
  ⟨_, tagRest.eq_3 false rest⟩

theorem takes_bracket : Takes (tagRest false) ('>' :: rest) ([], .opened) rest :=
  ⟨_, tagRest.eq_2 false rest⟩

/-- The token of a tag in front of content, or of an only tag. -/
def tagToken (heading : Heading) (ending : TagEnd) : Token :=
  .startTag (writtenWord heading.name) (heading.fields.map writtenField) ending

/-- The token of a tag behind content. -/
def endToken (heading : Heading) : Token := .endTag (writtenWord heading.name)

theorem stops_at_fields (fields : List (Word × String)) {cs : List Char} (ends : IsTagEnd cs) :
    ∀ c ∈ (Heading.fieldsChars fields ++ cs).head?, isNameChar c = false := by
  have noName : ∀ c ∈ [' ', '>', '/'], isNameChar c = false :=
    forall_mem_of_all (by decide)
  obtain ⟨c, mem, rest, eq⟩ := Heading.exists_cons_fieldsChars fields ends
  rw [eq]
  rintro _ ⟨⟩
  exact noName c mem

/-- A tag behind its opening bracket. -/
theorem takes_markup {heading : Heading} {tail : List Char} {ending : TagEnd}
    (legal : heading.Holds LegalText) (ends : IsTagEnd tail)
    (behind : Takes (tagRest false) tail ([], ending) rest) :
    Takes markup (heading.name.text.toList ++ (Heading.fieldsChars heading.fields ++ tail))
      (tagToken heading ending) rest := by
  obtain ⟨first, more, letters⟩ := List.exists_cons_of_ne_nil heading.name.filled
  have lower : first.isLower = true := heading.name.isLower_of_mem (letters ▸ List.mem_cons_self)
  have name := takes_writtenNameFrom heading.name letters (stops_at_fields heading.fields ends)
  rw [letters]
  refine takes_next.bind ?_
  split
  · exact absurd lower (by decide)
  · exact absurd lower (by decide)
  · exact absurd lower (by decide)
  · exact name.bind (Takes.bind (takes_tagRest legal behind) takes_pure)

theorem takes_writtenName (word : Word) (ends : ∀ c ∈ rest.head?, isNameChar c = false) :
    Takes writtenName (word.text.toList ++ rest) (writtenWord word) rest := by
  obtain ⟨first, more, letters⟩ := List.exists_cons_of_ne_nil word.filled
  rw [letters]
  exact takes_next.bind (takes_writtenNameFrom word letters ends)

@[inherit_doc takes_markup]
theorem takes_endMarkup (heading : Heading) :
    Takes markup ('/' :: (heading.name.text.toList ++ '>' :: rest)) (endToken heading) rest := by
  refine takes_next.bind ((takes_writtenName heading.name (by simp; decide)).bind ?_)
  exact (takes_spaces (by simp; decide)).bind ((takes_expect ">").bind takes_pure)

section Content

variable {input mid : List Char} {level : Nat} {name : WrittenName}
  {attributes : List WrittenAttribute} {tokens : List Token}

theorem takes_content_opened (here : Takes markup input (.startTag name attributes .opened) mid)
    (behind : Takes (content (level + 1)) mid tokens rest) :
    Takes (content level) ('<' :: input) (.startTag name attributes .opened :: tokens) rest := by
  obtain ⟨le, here⟩ := here
  obtain ⟨le', behind⟩ := behind
  refine ⟨Nat.le_succ_of_le (Nat.le_trans le' le), ?_⟩
  rw [content, here]
  simp only [bind, Except.bind, behind]
  rfl

theorem takes_content_closed (here : Takes markup input (.startTag name attributes .closed) mid)
    (behind : Takes (content level) mid tokens rest) :
    Takes (content level) ('<' :: input) (.startTag name attributes .closed :: tokens) rest := by
  obtain ⟨le, here⟩ := here
  obtain ⟨le', behind⟩ := behind
  refine ⟨Nat.le_succ_of_le (Nat.le_trans le' le), ?_⟩
  rw [content, here]
  simp only [bind, Except.bind, behind]
  rfl

theorem takes_content_ended (here : Takes markup input (.endTag name) mid)
    (behind : Takes (content level) mid tokens rest) :
    Takes (content (level + 1)) ('<' :: input) (.endTag name :: tokens) rest := by
  obtain ⟨le, here⟩ := here
  obtain ⟨le', behind⟩ := behind
  refine ⟨Nat.le_succ_of_le (Nat.le_trans le' le), ?_⟩
  rw [content, here]
  simp only [bind, Except.bind, Nat.add_sub_cancel, behind]
  rfl

/-- The end tag of the element that the content is in ends it. -/
theorem takes_content_last (here : Takes markup input (.endTag name) rest) :
    Takes (content 0) ('<' :: input) [.endTag name] rest := by
  obtain ⟨le, here⟩ := here
  refine ⟨Nat.le_succ_of_le le, ?_⟩
  rw [content, here]
  rfl

theorem cutAt_eq_none {text : List Char} (bracket : '>' ∉ text) : cutAt [']', ']', '>'] text = none := by
  induction text with
  | nil => rfl
  | cons c text ih =>
    have notPrefix : [']', ']', '>'].isPrefixOf (c :: text) = false := by
      rw [Bool.eq_false_iff, ne_eq, List.isPrefixOf_iff_prefix]
      exact fun isPrefix => bracket (isPrefix.subset (by simp))
    rw [cutAt, notPrefix, ih fun mem => bracket (List.mem_cons_of_mem _ mem)]
    rfl

/-- The token of character data, if there is any. -/
def charactersOf : List Char → List Token
  | [] => []
  | run => [.characters run]

/-- Character data up to the next tag. -/
theorem takes_content_characters {run : List Char} (opening : '<' ∉ run) (closing : '>' ∉ run)
    (legal : IsLegal run) (ends : mid.head? = some '<')
    (behind : Takes (content level) mid tokens rest) :
    Takes (content level) (run ++ mid) (charactersOf run ++ tokens) rest := by
  cases run with
  | nil => exact behind
  | cons c run =>
    have other : c ≠ '<' := fun eq => opening (eq ▸ List.mem_cons_self)
    have inRun : ∀ d ∈ run, (d != '<') = true := fun d mem =>
      bne_iff_ne.2 fun eq => opening (eq ▸ List.mem_cons_of_mem _ mem)
    have none : mid.takeWhile (· != '<') = [] ∧ mid.dropWhile (· != '<') = mid := by
      cases mid with
      | nil => exact ⟨rfl, rfl⟩
      | cons d mid =>
        cases ends
        exact ⟨rfl, rfl⟩
    have taken : (run ++ mid).takeWhile (· != '<') = run := by
      rw [List.takeWhile_append_of_pos inRun, none.1, List.append_nil]
    have left : (run ++ mid).dropWhile (· != '<') = mid := by
      rw [List.dropWhile_append_of_pos inRun, none.2]
    have allLegal : (c :: run).find? (fun d => !isLegal d) = Option.none := by
      rw [List.find?_eq_none]
      intro d mem
      simp [legal d mem]
    rw [← left] at behind
    obtain ⟨le, behind⟩ := behind
    have shorter : rest.length ≤ (c :: (run ++ mid)).length := by
      rw [left] at le
      simp only [List.length_append, List.length_cons]
      omega
    rw [List.cons_append]
    refine ⟨shorter, ?_⟩
    rw [content]
    · rw [taken, allLegal, cutAt_eq_none closing]
      simp only [bind, Except.bind, behind]
      rfl
    · exact other

end Content

end Tags

end Scanner

end RelaxDoc.Xml
