import RelaxDoc.Proofs.Xml.LegalSource

/-! Which characters reach a document. The scanner lets no character into a token that may not stand in
a document, and a reference gives none, so all strings of a document are legal. The only other way in is the
text of an entity in the value of an attribute, which is not looked at where it is declared. Names have
only characters that names may have. -/
namespace RelaxDoc.Xml

/-- A token without illegal characters. -/
def Token.Legal : Token → Prop
  | .startTag _ attributes _ => ∀ a ∈ attributes, IsLegal a.value
  | .characters raw | .verbatim raw => IsLegal raw
  | .endTag _ | .comment _ | .instruction _ _ => True

/-- A written name whose local part has only characters of names. -/
def WrittenName.Proper (name : WrittenName) : Prop := ∀ c ∈ name.localName.toList, isNameChar c = true

/-- A token whose name is proper, if it is a start tag. -/
def Token.Named : Token → Prop
  | .startTag name _ _ => name.Proper
  | _ => True

/-- A token as the scanner gives it. -/
structure Token.Sound (token : Token) : Prop where
  legal : token.Legal
  named : token.Named

/-- A piece that is no illegal character. -/
def Piece.Legal : Piece → Prop
  | .plain c | .given c => isLegal c = true
  | .entity _ => True

/-- The local part of a name is a part of what it is split from. -/
theorem WrittenName.mem_of_ofChars? {cs : List Char} {name : WrittenName}
    (split : ofChars? cs = some name) {c : Char} (member : c ∈ name.localName.toList) : c ∈ cs := by
  unfold ofChars? at split
  cases behind : cs.dropWhile (· != ':') with
  | nil =>
    rw [behind] at split
    dsimp only at split
    split at split
    · cases split
    · split at split <;> cases split
      rw [String.toList_ofList] at member
      exact (List.takeWhile_sublist _).subset member
  | cons colon rest =>
    rw [behind] at split
    dsimp only at split
    split at split
    · cases split
    · split at split <;> cases split
      rw [String.toList_ofList] at member
      refine (List.dropWhile_sublist (l := cs) (· != ':')).subset ?_
      rw [behind]
      exact List.mem_cons_of_mem _ member

namespace Scanner

/-- Whatever the scanner takes satisfies a property. -/
def Gives {α : Type} (scanner : (input : List Char) → Except Fault (Scanned α input))
    (P : α → Prop) : Prop := ∀ input value rest, Takes scanner input value rest → P value

section Gives

variable {α β : Type} {P : α → Prop} {Q : β → Prop}

theorem Gives.bind {scanner : Scanner α} {next : α → Scanner β} (first : Gives scanner P)
    (second : ∀ a, P a → Gives (next a) Q) : Gives (scanner >>= next) Q := by
  intro input value rest takes
  obtain ⟨a, mid, here, there⟩ := takes.exists_mid
  exact second a (first _ _ _ here) _ _ _ there

theorem gives_true (scanner : Scanner α) : Gives scanner fun _ => True := fun _ _ _ _ => trivial

/-- What is taken first does not matter. -/
theorem gives_bind {scanner : Scanner α} {next : α → Scanner β} (second : ∀ a, Gives (next a) Q) :
    Gives (scanner >>= next) Q :=
  (gives_true scanner).bind fun a _ => second a

theorem gives_pure {a : α} (holds : P a) : Gives (pure a : Scanner α) P := by
  intro input value rest takes
  rw [takes.eq_of_pure.1]
  exact holds

theorem gives_fail (fault : Fault) : Gives (fail fault : Scanner α) P := fun _ _ _ takes =>
  absurd takes not_takes_fail

theorem gives_upTo (mark : String) : Gives (upTo mark) IsLegal := by
  rintro input value rest ⟨le, taken⟩
  unfold upTo at taken
  split at taken
  · cases taken
  · split at taken
    · cases taken
    · rename_i none
      cases taken
      exact isLegal_of_find? none

theorem gives_attributeValue : Gives attributeValue IsLegal := by
  refine gives_bind fun _ => gives_bind fun _ => gives_bind fun _ => gives_bind fun value =>
    gives_bind fun _ => ?_
  split
  · exact gives_fail _
  · rename_i none
    exact gives_pure (isLegal_of_find? none)

theorem gives_attributeFrom (first : Char) : Gives (attributeFrom first) fun a => IsLegal a.value :=
  gives_bind fun _ => gives_attributeValue.bind fun _ legal => gives_pure legal

end Gives

theorem tagRest_legal (spaced : Bool) (input : List Char)
    {scan : Scanned (List WrittenAttribute × TagEnd) input} (taken : tagRest spaced input = .ok scan) :
    ∀ a ∈ scan.value.1, IsLegal a.value := by
  fun_induction tagRest spaced input with
  | case1 | case5 | case8 => cases taken
  | case2 | case3 | case4 =>
    cases taken
    simp
  | case6 spaced c rest _ _ _ ih =>
    obtain ⟨more, found, eq⟩ := exists_of_bind taken
    cases eq
    exact ih found
  | case7 c rest _ _ _ ih =>
    obtain ⟨given, here, eq⟩ := exists_of_bind taken
    obtain ⟨more, found, eq⟩ := exists_of_bind eq
    cases eq
    rw [Scanned.widen, Scanned.map, Scanned.behind, List.forall_mem_cons]
    exact ⟨gives_attributeFrom c rest given.value given.rest ⟨given.le, here⟩, ih given found⟩

theorem gives_tagRest (spaced : Bool) :
    Gives (tagRest spaced) fun found => ∀ a ∈ found.1, IsLegal a.value :=
  fun input _ _ ⟨_, taken⟩ => tagRest_legal spaced input taken

theorem gives_writtenNameFrom (first : Char) : Gives (writtenNameFrom first) WrittenName.Proper := by
  intro input name rest takes
  obtain ⟨_, mid, begins, behind⟩ := takes.exists_mid
  obtain ⟨isFirst, rfl⟩ := begins.holds_of_require
  obtain ⟨more, left, stretch, last⟩ := behind.exists_mid
  obtain ⟨rfl, rfl⟩ := stretch.eq_of_takeWhile
  split at last
  · rename_i found split
    obtain ⟨rfl, rfl⟩ := last.eq_of_pure
    intro c member
    rcases List.mem_cons.1 (WrittenName.mem_of_ofChars? split member) with rfl | later
    · exact isFirst
    · exact List.mem_takeWhile_imp later
  · exact absurd last not_takes_fail

theorem gives_markup : Gives markup Token.Sound := by
  refine gives_bind fun first => ?_
  split
  · refine gives_bind fun comment => ?_
    split
    · exact gives_bind fun _ => gives_bind fun _ => gives_pure ⟨trivial, trivial⟩
    · refine gives_bind fun section_ => ?_
      split
      · exact (gives_upTo _).bind fun _ legal => gives_pure ⟨legal, trivial⟩
      · exact gives_fail _
  · exact gives_bind fun _ => gives_bind fun _ => gives_bind fun _ => gives_bind fun _ =>
      gives_bind fun _ => gives_pure ⟨trivial, trivial⟩
  · exact gives_bind fun _ => gives_bind fun _ => gives_bind fun _ => gives_pure ⟨trivial, trivial⟩
  · exact (gives_writtenNameFrom _).bind fun _ proper => (gives_tagRest false).bind fun _ legal =>
      gives_pure ⟨legal, proper⟩

/-- The tokens of content are sound, whatever it is content of. -/
theorem content_sound (level : Nat) (input : List Char) {scan : Scanned (List Token) input}
    (taken : content level input = .ok scan) : ∀ token ∈ scan.value, token.Sound := by
  fun_induction content level input with
  | case1 =>
    cases taken
    simp
  | case2 level rest ih =>
    obtain ⟨token, here, eq⟩ := exists_of_bind taken
    have sound : token.value.Sound := gives_markup rest token.value token.rest ⟨token.le, here⟩
    extract_lets _ stop at eq
    by_cases last : stop = true
    · rw [if_pos last] at eq
      cases eq
      simpa [Scanned.widen, Scanned.map] using sound
    · rw [if_neg last] at eq
      obtain ⟨more, found, eq⟩ := exists_of_bind eq
      cases eq
      rw [Scanned.widen, Scanned.map, Scanned.behind, List.forall_mem_cons]
      exact ⟨sound, ih token found⟩
  | case3 => cases taken
  | case4 level c rest _ run goOn none =>
    rename_i ih
    obtain ⟨_, -, eq⟩ := exists_of_bind taken
    simp only [goOn] at eq
    split at eq
    · cases eq
    · obtain ⟨more, found, eq⟩ := exists_of_bind eq
      cases eq
      rw [Scanned.widen, Scanned.map, List.forall_mem_cons]
      exact ⟨⟨isLegal_of_find? none, trivial⟩, ih found⟩

theorem gives_content (level : Nat) :
    Gives (content level) fun tokens => ∀ token ∈ tokens, token.Sound :=
  fun input _ _ ⟨_, taken⟩ => content_sound level input taken

theorem gives_rootElement : Gives rootElement fun tokens => ∀ token ∈ tokens, token.Sound := by
  refine (gives_bind gives_writtenNameFrom).bind fun name proper =>
    (gives_tagRest false).bind fun (attributes, ending) legal => ?_
  have sound : (Token.startTag name attributes ending).Sound := ⟨legal, proper⟩
  dsimp only
  split
  · exact (gives_content 0).bind fun _ inside => gives_pure (List.forall_mem_cons.2 ⟨sound, inside⟩)
  · refine (gives_pure (P := (· = [])) rfl).bind fun inside none => gives_pure ?_
    rw [none, List.forall_mem_singleton]
    exact sound

theorem gives_rootOutline :
    Gives rootOutline fun outline => ∀ token ∈ outline.tokens, token.Sound := by
  refine gives_bind fun _ => gives_bind fun declared => ?_
  split
  all_goals
    refine gives_bind fun entities => gives_bind fun _ => gives_bind fun found => ?_
    split
    · exact gives_rootElement.bind fun tokens sound =>
        gives_bind fun _ => gives_bind fun _ => gives_bind fun _ => gives_pure sound
    · refine (gives_pure (P := (· = [])) rfl).bind fun tokens none =>
        gives_bind fun _ => gives_bind fun _ => gives_bind fun _ => gives_pure ?_
      rw [none]
      exact nofun

theorem gives_document : Gives document fun outline => ∀ token ∈ outline.tokens, token.Sound := by
  rw [document_eq]
  refine gives_bind fun declared => ?_
  split
  · exact gives_bind fun _ => gives_bind fun _ => gives_rootOutline
  · exact gives_rootOutline

theorem isLegal_of_givenChar? {digits : List Char} {number : Nat} {c : Char}
    (given : givenChar? digits number = some c) : isLegal c = true := by
  unfold givenChar? at given
  split at given
  · cases given
  · extract_lets d at given
    by_cases legal : isLegal d = true
    · rw [if_pos legal] at given
      exact Option.some.inj given ▸ legal
    · rw [if_neg legal] at given
      cases given

theorem isLegal_of_predefined? {name : String} {c : Char} (known : predefined? name = some c) :
    isLegal c = true := by
  unfold predefined? at known
  split at known
  · cases known; decide
  split at known
  · cases known; decide
  split at known
  · cases known; decide
  split at known
  · cases known; decide
  split at known
  · cases known; decide
  · cases known

/-- A reference gives no illegal character. -/
theorem gives_reference : Gives reference Piece.Legal := by
  have last (piece : Piece) (legal : piece.Legal) :
      Gives (expect ";" >>= fun _ => pure piece) Piece.Legal :=
    gives_bind fun _ => gives_pure legal
  refine gives_bind fun numeric => ?_
  split
  · refine gives_bind fun hexadecimal => gives_bind fun digits => ?_
    split
    · rename_i c given
      have legal : (Piece.given c).Legal := isLegal_of_givenChar? given
      exact (gives_pure legal).bind last
    · exact (gives_fail _).bind last
  · refine gives_bind fun first => gives_bind fun _ => gives_bind fun more =>
      (gives_pure (P := Piece.Legal) ?_).bind last
    split
    · rename_i c known
      exact isLegal_of_predefined? known
    · trivial

end Scanner

/-- The pieces of a legal text are legal. -/
theorem pieces_legal {text : List Char} {found : List Piece} (legal : IsLegal text)
    (read : pieces text = .ok found) : ∀ piece ∈ found, piece.Legal := by
  fun_induction pieces text generalizing found with
  | case1 =>
    cases read
    exact nofun
  | case2 rest ih =>
    obtain ⟨reference, here, eq⟩ := exists_of_bind read
    obtain ⟨more, there, eq⟩ := exists_of_bind eq
    cases eq
    have left : LegalUpTo reference.rest rest := Scanner.passes_reference _ _ _ ⟨reference.le, here⟩
    rw [List.forall_mem_cons]
    exact ⟨Scanner.gives_reference rest reference.value reference.rest ⟨reference.le, here⟩,
      ih reference (left.isLegal_rest fun c mem => legal c (List.mem_cons_of_mem _ mem)) there⟩
  | case3 c rest _ ih =>
    obtain ⟨more, there, eq⟩ := exists_of_bind read
    cases eq
    rw [List.forall_mem_cons]
    exact ⟨legal c List.mem_cons_self, ih (fun d mem => legal d (List.mem_cons_of_mem _ mem)) there⟩

theorem Outline.sound_of_ofText {text : String} {outline : Outline} (read : ofText text = .ok outline) :
    ∀ token ∈ outline.tokens, token.Sound := by
  obtain ⟨scan, taken, eq⟩ := exists_of_bind read
  cases eq
  exact Scanner.gives_document _ scan.value scan.rest ⟨scan.le, taken⟩

end RelaxDoc.Xml
