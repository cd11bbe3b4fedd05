import RelaxDoc.Xml.Reference
import RelaxDoc.Xml.Writer

/-! Escaped texts. None holds a bracket or a quotation mark, and reading the references in one gives
back the text, so different texts are different when they are escaped. -/
namespace RelaxDoc.Xml

/-- What a check finds of each character in a list. -/
theorem forall_mem_of_all {p : Char → Prop} [DecidablePred p] {cs : List Char}
    (all : cs.all (fun c => decide (p c)) = true) : ∀ c ∈ cs, p c := by
  simpa using all

/-- The characters that are escaped. -/
def special : List Char := ['<', '>', '&', '\'', '"']

/-- What a reader finds for an escaped character. -/
def escapedPiece (c : Char) : Piece := if c ∈ special then .given c else .plain c

/-- The character of a piece, if it is one. -/
def Piece.char? : Piece → Option Char
  | .plain c | .given c => some c
  | .entity _ => none

theorem char?_escapedPiece (c : Char) : (escapedPiece c).char? = some c := by
  unfold escapedPiece
  split <;> rfl

theorem escapedChar_of_plain {c : Char} (plain : c ∉ special) : escapedChar c = [c] := by
  simp only [special, List.mem_cons, List.not_mem_nil, or_false, not_or] at plain
  simp [escapedChar, plain]

theorem escapedChars_of_plain {text : String} (plain : ∀ c ∈ text.toList, c ∉ special) :
    escapedChars text = text.toList := by
  unfold escapedChars
  generalize text.toList = cs at plain
  induction cs with
  | nil => rfl
  | cons c rest ih =>
    rw [List.flatMap_cons, escapedChar_of_plain (plain c List.mem_cons_self),
      ih fun d mem => plain d (List.mem_cons_of_mem _ mem), List.singleton_append]

theorem not_mem_escapedChar (c : Char) :
    '<' ∉ escapedChar c ∧ '>' ∉ escapedChar c ∧ '"' ∉ escapedChar c := by
  by_cases plain : c ∈ special
  · simp only [special, List.mem_cons, List.not_mem_nil, or_false] at plain
    rcases plain with rfl | rfl | rfl | rfl | rfl <;> decide
  · rw [escapedChar_of_plain plain]
    simp only [special, List.mem_cons, List.not_mem_nil, or_false, not_or] at plain
    simp [Ne.symm plain.1, Ne.symm plain.2.1, Ne.symm plain.2.2.2.2]

theorem not_mem_escapedChars (text : String) :
    '<' ∉ escapedChars text ∧ '>' ∉ escapedChars text ∧ '"' ∉ escapedChars text := by
  simp only [escapedChars, List.mem_flatMap, not_exists, not_and]
  exact ⟨fun c _ => (not_mem_escapedChar c).1, fun c _ => (not_mem_escapedChar c).2.1,
    fun c _ => (not_mem_escapedChar c).2.2⟩

/-- A text of characters that may stand in a document. -/
def IsLegal (cs : List Char) : Prop := ∀ c ∈ cs, isLegal c = true

@[inherit_doc IsLegal]
def LegalText (text : String) : Prop := IsLegal text.toList

instance (cs : List Char) : Decidable (IsLegal cs) := List.decidableBAll _ cs

instance (text : String) : Decidable (LegalText text) :=
  inferInstanceAs (Decidable (IsLegal text.toList))

theorem LegalText.escaped {text : String} (legal : LegalText text) : IsLegal (escapedChars text) := by
  intro c mem
  obtain ⟨d, inText, mem⟩ := List.mem_flatMap.1 mem
  by_cases plain : d ∈ special
  · have ascii : ∀ d ∈ special, IsLegal (escapedChar d) := forall_mem_of_all (by decide)
    exact ascii d plain c mem
  · rw [escapedChar_of_plain plain, List.mem_singleton] at mem
    exact mem ▸ legal d inText

theorem pieces_reference {name rest : List Char} {c : Char} {le : rest.length ≤ name.length}
    (found : Scanner.reference name = .ok ⟨.given c, rest, le⟩) :
    pieces ('&' :: name) = (pieces rest).map (.given c :: ·) := by
  rw [pieces, found]
  rfl

theorem pieces_plain {c : Char} (other : c ≠ '&') (rest : List Char) :
    pieces (c :: rest) = (pieces rest).map (.plain c :: ·) := by
  rw [pieces]
  · rfl
  · exact other

theorem pieces_escapedChar (c : Char) (rest : List Char) :
    pieces (escapedChar c ++ rest) = (pieces rest).map (escapedPiece c :: ·) := by
  by_cases plain : c ∈ special
  · rw [escapedPiece, if_pos plain]
    simp only [special, List.mem_cons, List.not_mem_nil, or_false] at plain
    rcases plain with rfl | rfl | rfl | rfl | rfl
    all_goals
      apply pieces_reference
      rfl
  · have other : c ≠ '&' := by
      rintro rfl
      exact plain (by decide)
    rw [escapedPiece, if_neg plain, escapedChar_of_plain plain]
    exact pieces_plain other rest

/-- Reading the references in an escaped text gives the characters of the text. -/
theorem pieces_escapedChars (text : String) :
    pieces (escapedChars text) = .ok (text.toList.map escapedPiece) := by
  unfold escapedChars
  induction text.toList with
  | nil =>
    rw [List.flatMap_nil, pieces]
    rfl
  | cons c rest ih =>
    rw [List.flatMap_cons, pieces_escapedChar, ih]
    rfl

theorem escapedChars_injective : Function.Injective escapedChars := by
  intro one other same
  have read := congrArg pieces same
  rw [pieces_escapedChars, pieces_escapedChars] at read
  have chars := congrArg (List.filterMap Piece.char?) (Except.ok.inj read)
  have undo : Piece.char? ∘ escapedPiece = some := funext char?_escapedPiece
  rw [List.filterMap_map, List.filterMap_map, undo, List.filterMap_some, List.filterMap_some]
    at chars
  exact String.toList_inj.1 chars

end RelaxDoc.Xml
