import RelaxDoc.Proofs.Xml.Tokens

/-! Which characters a text has that can be read. Each scanner leaves the end of what it was given, and
looks at what it takes, so a root element that is read has no illegal character. -/
namespace RelaxDoc.Xml

theorem isLegal_nil : IsLegal [] := nofun

theorem IsLegal.append {one other : List Char} (legal : IsLegal one) (legal' : IsLegal other) :
    IsLegal (one ++ other) := List.forall_mem_append.2 ⟨legal, legal'⟩

theorem IsLegal.cons {c : Char} {cs : List Char} (legal : isLegal c = true) (legal' : IsLegal cs) :
    IsLegal (c :: cs) := List.forall_mem_cons.2 ⟨legal, legal'⟩

theorem isLegal_of_find? {cs : List Char} (none : cs.find? (fun c => !isLegal c) = none) : IsLegal cs := by
  intro c mem
  simpa using List.find?_eq_none.1 none c mem

theorem isLegal_of_isSpace {c : Char} (space : isSpace c = true) : isLegal c = true := by
  simp only [isSpace, Bool.or_eq_true, beq_iff_eq] at space
  rcases space with ((rfl | rfl) | rfl) | rfl <;> decide

theorem isLegal_of_ascii {c : Char} {low high : UInt32} (within : low ≤ c.val ∧ c.val ≤ high)
    (ascii : 0x20 ≤ low.toNat ∧ high.toNat ≤ 0x7F) : isLegal c = true := by
  have above : low.toNat ≤ c.toNat := within.1
  have below : c.toNat ≤ high.toNat := within.2
  rw [isLegal, if_neg (by omega)]
  simp only [Bool.and_eq_true, bne_iff_ne, ne_eq]
  omega

/-- A check of both bounds. -/
theorem and_of_decides {p q : Prop} [Decidable p] [Decidable q]
    (both : (decide p && decide q) = true) : p ∧ q :=
  (Bool.and_eq_true_iff.1 both).imp of_decide_eq_true of_decide_eq_true

theorem isLegal_of_isDigit {c : Char} (digit : c.isDigit = true) : isLegal c = true :=
  isLegal_of_ascii (and_of_decides digit) (by decide)

theorem isLegal_of_isAlphanum {c : Char} (plain : c.isAlphanum = true) : isLegal c = true := by
  rcases Bool.or_eq_true_iff.1 plain with alpha | digit
  · rcases Bool.or_eq_true_iff.1 alpha with upper | lower
    · exact isLegal_of_ascii (of_decide_eq_true upper) (by decide)
    · exact isLegal_of_ascii (and_of_decides lower) (by decide)
  · exact isLegal_of_isDigit digit

theorem isLegal_of_isHexDigit {c : Char} (digit : Text.isHexDigit c = true) : isLegal c = true := by
  unfold Text.isHexDigit Text.hexValue? at digit
  split at digit
  · rename_i decimal
    exact isLegal_of_isDigit decimal
  · split at digit
    · rename_i lower
      exact isLegal_of_ascii (and_of_decides lower) (by decide)
    · split at digit
      · rename_i upper
        exact isLegal_of_ascii (and_of_decides upper) (by decide)
      · cases digit

theorem isLegal_of_inRanges {ranges : List (Nat × Nat)} {c : Char}
    (bounds : ∀ range ∈ ranges, 0x20 ≤ range.1 ∧ (range.2 < 0xFFFE ∨ 0xFFFF < range.1))
    (inside : Text.inRanges ranges c = true) : isLegal c = true := by
  obtain ⟨range, mem, within⟩ := List.any_eq_true.1 inside
  have := bounds range mem
  simp only [Bool.and_eq_true, decide_eq_true_eq] at within
  rw [isLegal, if_neg (by omega)]
  simp only [Bool.and_eq_true, bne_iff_ne, ne_eq]
  omega

theorem isLegal_of_isNameStart {c : Char} (start : isNameStart c = true) : isLegal c = true := by
  rw [isNameStart, Bool.or_eq_true, beq_iff_eq] at start
  rcases start with rfl | inside
  · decide
  · exact isLegal_of_inRanges (by decide) inside

theorem isLegal_of_isNameChar {c : Char} (inName : isNameChar c = true) : isLegal c = true := by
  rw [isNameChar, Bool.or_eq_true] at inName
  rcases inName with start | inside
  · exact isLegal_of_isNameStart start
  · exact isLegal_of_inRanges (by decide) inside

theorem eq_append_of_cutAt {mark text before behind : List Char}
    (found : cutAt mark text = some (before, behind)) : text = before ++ mark ++ behind := by
  induction text generalizing before with
  | nil =>
    rw [cutAt] at found
    split at found <;> simp_all
  | cons c rest ih =>
    rw [cutAt] at found
    split at found
    · rename_i here
      obtain ⟨more, eq⟩ := List.isPrefixOf_iff_prefix.1 here
      cases found
      rw [← eq, List.drop_left, List.nil_append]
    · obtain ⟨⟨inner, left⟩, cut, same⟩ := Option.map_eq_some_iff.1 found
      cases same
      rw [ih cut, List.cons_append, List.cons_append]

/-- The text has no illegal character before the rest of it. -/
def LegalUpTo (rest text : List Char) : Prop := ∃ taken, IsLegal taken ∧ taken ++ rest = text

namespace LegalUpTo

variable {text mid rest : List Char}

theorem refl : LegalUpTo text text := ⟨[], isLegal_nil, rfl⟩

theorem append {taken : List Char} (legal : IsLegal taken) (behind : LegalUpTo rest text) :
    LegalUpTo rest (taken ++ text) := by
  obtain ⟨more, legal', rfl⟩ := behind
  exact ⟨taken ++ more, legal.append legal', List.append_assoc ..⟩

theorem cons {c : Char} (legal : isLegal c = true) (behind : LegalUpTo rest text) :
    LegalUpTo rest (c :: text) := append (isLegal_nil.cons legal) behind

theorem trans (first : LegalUpTo mid text) (second : LegalUpTo rest mid) : LegalUpTo rest text := by
  obtain ⟨taken, legal, rfl⟩ := first
  exact append legal second

theorem isLegal (front : LegalUpTo rest text) (behind : IsLegal rest) : IsLegal text := by
  obtain ⟨taken, legal, rfl⟩ := front
  exact legal.append behind

theorem isLegal_rest (front : LegalUpTo rest text) (legal : IsLegal text) : IsLegal rest := by
  obtain ⟨taken, -, rfl⟩ := front
  exact (List.forall_mem_append.1 legal).2

end LegalUpTo

/-- What is computed in two steps without a fault has a result of the first step. -/
theorem exists_of_bind {α β : Type} {first : Except Fault α} {next : α → Except Fault β} {b : β}
    (both : (first >>= next) = .ok b) : ∃ a, first = .ok a ∧ next a = .ok b := by
  cases first with
  | error fault => cases both
  | ok a => exact ⟨a, rfl, both⟩

namespace Scanner

/-- What is taken in two steps is taken by each of them. -/
theorem Takes.exists_mid {α β : Type} {scanner : Scanner α} {next : α → Scanner β}
    {input rest : List Char} {b : β} (both : Takes (scanner >>= next) input b rest) :
    ∃ a mid, Takes scanner input a mid ∧ Takes (next a) mid b rest := by
  obtain ⟨le, run⟩ := both
  simp only [Bind.bind] at run
  split at run
  · cases run
  · rename_i first here
    split at run
    · cases run
    · rename_i second there
      cases run
      exact ⟨first.value, first.rest, ⟨first.le, here⟩, second.le, there⟩

theorem Takes.eq_of_pure {α : Type} {a b : α} {input rest : List Char}
    (takes : Takes (pure a : Scanner α) input b rest) : b = a ∧ rest = input := by
  obtain ⟨le, run⟩ := takes
  cases run
  exact ⟨rfl, rfl⟩

theorem not_takes_fail {α : Type} {fault : Fault} {b : α} {input rest : List Char} :
    ¬ Takes (fail fault) input b rest := nofun

theorem Takes.holds_of_require {condition : Bool} {fault : Fault} {input rest : List Char} {b : Unit}
    (takes : Takes (require condition fault) input b rest) : condition = true ∧ rest = input := by
  cases condition with
  | false => exact absurd takes not_takes_fail
  | true => exact ⟨rfl, takes.eq_of_pure.2⟩

theorem Takes.eq_cons_of_next {input rest : List Char} {c : Char} (takes : Takes next input c rest) :
    input = c :: rest := by
  obtain ⟨le, run⟩ := takes
  cases input <;> cases run
  rfl

theorem Takes.eq_of_takeWhile {p : Char → Bool} {input rest run : List Char}
    (takes : Takes (takeWhile p) input run rest) : run = input.takeWhile p ∧ rest = input.dropWhile p := by
  obtain ⟨le, same⟩ := takes
  cases same
  exact ⟨rfl, rfl⟩

/-- A quoted value stands between two marks. -/
theorem Takes.eq_of_quoted {input value rest : List Char} (takes : Takes quoted input value rest) :
    ∃ mark, isLegal mark = true ∧ input = mark :: (value ++ mark :: rest) := by
  obtain ⟨mark, behind, first, checked⟩ := takes.exists_mid
  obtain ⟨_, left, known, stretch⟩ := checked.exists_mid
  obtain ⟨inside, more, within, ending⟩ := stretch.exists_mid
  obtain ⟨last, tail, final, given⟩ := ending.exists_mid
  obtain ⟨rfl, rfl⟩ := given.eq_of_pure
  obtain ⟨isMark, rfl⟩ := known.holds_of_require
  obtain ⟨rfl, eq⟩ := within.eq_of_takeWhile
  obtain rfl := final.eq_cons_of_next
  have closes : last = mark := by
    have out := List.head?_dropWhile_not (· != mark) left
    rw [← eq] at out
    simpa using out
  refine ⟨mark, ?_, ?_⟩
  · rw [Bool.or_eq_true, beq_iff_eq, beq_iff_eq] at isMark
    rcases isMark with rfl | rfl <;> decide
  · rw [first.eq_cons_of_next, ← closes, eq, closes, List.takeWhile_append_dropWhile]

/-- The scanner takes nothing but legal characters, and `before` is legal where it takes something
behind that. -/
def Passes {α : Type} (before : List Char)
    (scanner : (input : List Char) → Except Fault (Scanned α input)) : Prop :=
  ∀ input value rest, Takes scanner input value rest → LegalUpTo rest (before ++ input)

section Passes

variable {α β : Type} {before : List Char}

theorem Passes.bind {scanner : Scanner α} {next : α → Scanner β} (first : Passes before scanner)
    (second : ∀ a, Passes [] (next a)) : Passes before (scanner >>= next) := by
  intro input value rest takes
  obtain ⟨a, mid, here, there⟩ := takes.exists_mid
  exact (first _ _ _ here).trans (second a _ _ _ there)

theorem Passes.behind {scanner : Scanner α} (passes : Passes [] scanner) (legal : IsLegal before) :
    Passes before scanner := fun _ _ _ takes => (passes _ _ _ takes).append legal

theorem passes_pure (legal : IsLegal before) {a : α} : Passes before (pure a : Scanner α) := by
  intro input value rest takes
  rw [takes.eq_of_pure.2]
  exact LegalUpTo.refl.append legal

theorem passes_fail {fault : Fault} : Passes before (fail fault : Scanner α) := fun _ _ _ takes =>
  absurd takes not_takes_fail

theorem passes_require {condition : Bool} {fault : Fault} : Passes [] (require condition fault) := by
  intro input value rest takes
  rw [takes.holds_of_require.2]
  exact .refl

/-- Scanning goes on where the condition holds. -/
theorem passes_require_bind {condition : Bool} {fault : Fault} {next : Unit → Scanner β}
    (passes : condition = true → Passes before (next ())) :
    Passes before (require condition fault >>= next) := by
  intro input value rest takes
  obtain ⟨_, mid, here, there⟩ := takes.exists_mid
  obtain ⟨holds, rfl⟩ := here.holds_of_require
  exact passes holds _ _ _ there

/-- A character that is taken may be looked at later. -/
theorem passes_next_bind {next : Char → Scanner β} (passes : ∀ c, Passes (before ++ [c]) (next c)) :
    Passes before (Scanner.next >>= next) := by
  intro input value rest takes
  obtain ⟨c, mid, here, there⟩ := takes.exists_mid
  have legal := passes c _ _ _ there
  rwa [← List.append_cons, ← here.eq_cons_of_next] at legal

theorem passes_takeWhile {p : Char → Bool} (legal : ∀ c, p c = true → isLegal c = true) :
    Passes [] (takeWhile p) := by
  intro input run rest takes
  obtain ⟨rfl, rfl⟩ := takes.eq_of_takeWhile
  exact ⟨_, fun c mem => legal c (List.mem_takeWhile_imp mem), List.takeWhile_append_dropWhile⟩

theorem passes_sees (text : String) : Passes [] (sees text) := by
  rintro input value rest ⟨le, run⟩
  cases run
  exact .refl

theorem passes_accept {text : String} (legal : LegalText text) : Passes [] (accept text) := by
  rintro input value rest ⟨le, run⟩
  unfold accept at run
  split at run
  · rename_i here
    cases run
    obtain ⟨rest, rfl⟩ := List.isPrefixOf_iff_prefix.1 here
    exact ⟨text.toList, legal, by simp [← String.length_toList]⟩
  · cases run
    exact .refl

theorem passes_expect {text : String} (legal : LegalText text) : Passes [] (expect text) :=
  (passes_accept legal).bind fun _ => passes_require

theorem passes_spaces : Passes [] spaces :=
  (passes_takeWhile fun _ => isLegal_of_isSpace).bind fun _ => passes_pure isLegal_nil

theorem passes_upTo {mark : String} (legal : LegalText mark) : Passes [] (upTo mark) := by
  rintro input value rest ⟨le, run⟩
  unfold upTo at run
  split at run
  · cases run
  · rename_i before behind found
    split at run
    · cases run
    · rename_i none
      cases run
      exact ⟨value ++ mark.toList, (isLegal_of_find? none).append legal, (eq_append_of_cutAt found).symm⟩

theorem passes_nameRest {first : Char} (legal : isLegal first = true) :
    Passes [first] (takeWhile isNameChar) :=
  (passes_takeWhile fun _ => isLegal_of_isNameChar).behind (isLegal_nil.cons legal)

theorem passes_writtenNameFrom (first : Char) : Passes [first] (writtenNameFrom first) := by
  refine passes_require_bind fun inName => ?_
  refine (passes_nameRest (isLegal_of_isNameChar inName)).bind fun more => ?_
  split
  · exact passes_pure isLegal_nil
  · exact passes_fail

theorem passes_writtenName : Passes [] writtenName := passes_next_bind passes_writtenNameFrom

theorem passes_plainName : Passes [] plainName := by
  refine passes_next_bind fun first => passes_require_bind fun start => ?_
  exact (passes_nameRest (isLegal_of_isNameStart start)).bind fun _ => passes_pure isLegal_nil

/-- The value is looked at behind its quotation marks. -/
theorem passes_attributeValue : Passes [] attributeValue := by
  refine passes_spaces.bind fun _ => (passes_expect (by decide)).bind fun _ =>
    passes_spaces.bind fun _ => ?_
  intro input value rest takes
  obtain ⟨inside, mid, quoted, checked⟩ := takes.exists_mid
  obtain ⟨_, left, angle, last⟩ := checked.exists_mid
  obtain rfl := angle.holds_of_require.2
  split at last
  · exact absurd last not_takes_fail
  · rename_i none
    obtain ⟨rfl, rfl⟩ := last.eq_of_pure
    obtain ⟨mark, legal, rfl⟩ := quoted.eq_of_quoted
    exact .cons legal (.append (isLegal_of_find? none) (.cons legal .refl))

theorem passes_attributeFrom (first : Char) : Passes [first] (attributeFrom first) :=
  (passes_writtenNameFrom first).bind fun _ => passes_attributeValue.bind fun _ =>
    passes_pure isLegal_nil

theorem passes_reference : Passes [] reference := by
  refine (passes_accept (by decide)).bind fun numeric => ?_
  split
  · refine (passes_accept (by decide)).bind fun hexadecimal => ?_
    have digits : Passes [] (takeWhile (if hexadecimal then Text.isHexDigit else Char.isDigit)) := by
      refine passes_takeWhile fun c digit => ?_
      split at digit
      · exact isLegal_of_isHexDigit digit
      · exact isLegal_of_isDigit digit
    refine digits.bind fun digits => ?_
    split
    · exact (passes_pure isLegal_nil).bind fun _ => (passes_expect (by decide)).bind fun _ =>
        passes_pure isLegal_nil
    · exact passes_fail.bind fun _ => (passes_expect (by decide)).bind fun _ => passes_pure isLegal_nil
  · refine passes_next_bind fun first => passes_require_bind fun start => ?_
    exact (passes_nameRest (isLegal_of_isNameStart start)).bind fun _ =>
      (passes_pure isLegal_nil).bind fun _ => (passes_expect (by decide)).bind fun _ =>
        passes_pure isLegal_nil

end Passes

theorem tagRest_legalUpTo (spaced : Bool) (input : List Char)
    {scan : Scanned (List WrittenAttribute × TagEnd) input} (taken : tagRest spaced input = .ok scan) :
    LegalUpTo scan.rest input := by
  fun_induction tagRest spaced input with
  | case1 | case5 | case8 => cases taken
  | case2 =>
    cases taken
    exact .refl
  | case3 =>
    cases taken
    exact .cons (by decide) .refl
  | case4 =>
    cases taken
    exact .cons (by decide) (.cons (by decide) .refl)
  | case6 spaced c rest _ _ space ih =>
    obtain ⟨more, found, eq⟩ := exists_of_bind taken
    cases eq
    exact .cons (isLegal_of_isSpace space) (ih found)
  | case7 c rest _ _ _ ih =>
    obtain ⟨given, here, eq⟩ := exists_of_bind taken
    obtain ⟨more, found, eq⟩ := exists_of_bind eq
    cases eq
    exact (passes_attributeFrom c rest given.value given.rest ⟨given.le, here⟩).trans (ih given found)

theorem passes_tagRest (spaced : Bool) : Passes [] (tagRest spaced) :=
  fun input _ _ ⟨_, taken⟩ => tagRest_legalUpTo spaced input taken

theorem passes_commentRest : Passes [] commentRest :=
  (passes_upTo (by decide)).bind fun _ => passes_require.bind fun _ => passes_pure isLegal_nil

theorem passes_instructionRest : Passes [] instructionRest :=
  (passes_sees _).bind fun _ => passes_require.bind fun _ => passes_plainName.bind fun _ =>
    passes_spaces.bind fun _ => (passes_upTo (by decide)).bind fun _ => passes_pure isLegal_nil

theorem passes_markup : Passes [] markup := by
  refine passes_next_bind fun first => ?_
  split
  · refine ((passes_accept (by decide)).behind (by decide)).bind fun comment => ?_
    split
    · exact passes_commentRest
    · refine (passes_accept (by decide)).bind fun section_ => ?_
      split
      · exact (passes_upTo (by decide)).bind fun _ => passes_pure isLegal_nil
      · exact passes_fail
  · exact passes_instructionRest.behind (by decide)
  · exact (passes_writtenName.behind (by decide)).bind fun _ => passes_spaces.bind fun _ =>
      (passes_expect (by decide)).bind fun _ => passes_pure isLegal_nil
  · exact (passes_writtenNameFrom _).bind fun _ => (passes_tagRest false).bind fun _ =>
      passes_pure isLegal_nil

theorem content_legalUpTo (level : Nat) (input : List Char) {scan : Scanned (List Token) input}
    (taken : content level input = .ok scan) : LegalUpTo scan.rest input := by
  fun_induction content level input with
  | case1 =>
    cases taken
    exact .refl
  | case2 level rest ih =>
    obtain ⟨token, here, eq⟩ := exists_of_bind taken
    have legal : LegalUpTo token.rest ('<' :: rest) :=
      .cons (by decide) (passes_markup rest token.value token.rest ⟨token.le, here⟩)
    extract_lets _ stop at eq
    by_cases last : stop = true
    · rw [if_pos last] at eq
      cases eq
      exact legal
    · rw [if_neg last] at eq
      obtain ⟨more, found, eq⟩ := exists_of_bind eq
      cases eq
      exact legal.trans (ih token found)
  | case3 => cases taken
  | case4 level c rest _ run goOn none =>
    rename_i ih
    obtain ⟨_, -, eq⟩ := exists_of_bind taken
    simp only [goOn] at eq
    split at eq
    · cases eq
    · obtain ⟨more, found, eq⟩ := exists_of_bind eq
      cases eq
      have whole : run ++ rest.dropWhile (· != '<') = c :: rest :=
        congrArg (c :: ·) List.takeWhile_append_dropWhile
      have legal := (ih found).append (isLegal_of_find? none)
      rwa [whole] at legal

theorem passes_content (level : Nat) : Passes [] (content level) :=
  fun input _ _ ⟨_, taken⟩ => content_legalUpTo level input taken

theorem passes_rootElement : Passes [] rootElement := by
  refine passes_writtenName.bind fun name => (passes_tagRest false).bind fun (attributes, ending) => ?_
  dsimp only
  split
  · exact (passes_content 0).bind fun _ => passes_pure isLegal_nil
  · exact (passes_pure isLegal_nil).bind fun _ => passes_pure isLegal_nil

theorem misc_legalUpTo (input : List Char) {scan : Scanned Unit input} (taken : misc input = .ok scan) :
    LegalUpTo scan.rest input := by
  fun_induction misc input with
  | case1 rest ih =>
    obtain ⟨comment, here, eq⟩ := exists_of_bind taken
    obtain ⟨more, found, eq⟩ := exists_of_bind eq
    cases eq
    have opening : IsLegal ['<', '!', '-', '-'] := by decide
    refine .append opening ?_
    exact (passes_commentRest rest comment.value comment.rest ⟨comment.le, here⟩).trans (ih comment found)
  | case2 rest ih =>
    obtain ⟨instruction, here, eq⟩ := exists_of_bind taken
    obtain ⟨more, found, eq⟩ := exists_of_bind eq
    cases eq
    have opening : IsLegal ['<', '?'] := by decide
    refine .append opening ?_
    exact (passes_instructionRest rest instruction.value instruction.rest ⟨instruction.le, here⟩).trans
      (ih instruction found)
  | case3 c rest _ _ space ih =>
    obtain ⟨more, found, eq⟩ := exists_of_bind taken
    cases eq
    exact .cons (isLegal_of_isSpace space) (ih found)
  | case4 | case5 =>
    cases taken
    exact .refl

theorem passes_misc : Passes [] misc := fun input _ _ ⟨_, taken⟩ => misc_legalUpTo input taken

theorem Takes.unique {α : Type} {scanner : (input : List Char) → Except Fault (Scanned α input)}
    {input rest rest' : List Char} {a a' : α} (one : Takes scanner input a rest)
    (other : Takes scanner input a' rest') : a = a' ∧ rest = rest' := by
  obtain ⟨le, one⟩ := one
  obtain ⟨le', other⟩ := other
  cases one.symm.trans other
  exact ⟨rfl, rfl⟩

/-- Behind the root only comments, instructions and white space may stand. -/
theorem isLegal_of_takes_end {α : Type} {input rest : List Char} {a b : α}
    (takes : Takes (do misc; require (← peek).isNone .unknownMarkup; return a : Scanner α) input b rest) :
    IsLegal input := by
  obtain ⟨_, mid, more, final⟩ := takes.exists_mid
  obtain ⟨_, left, seen, ends⟩ := final.exists_mid
  obtain ⟨rfl, rfl⟩ := takes_peek.unique seen
  obtain ⟨_, _, none, -⟩ := ends.exists_mid
  have nothing : mid = [] := by simpa using none.holds_of_require.1
  exact LegalUpTo.isLegal (passes_misc _ _ _ more) (nothing ▸ isLegal_nil)

/-- A text that a tag begins declares no entities, so all of it is looked at. -/
theorem isLegal_of_takes_rootOutline {gap text rest : List Char} {outline : Outline}
    (isGap : IsGap gap) (begins : BeginsTag text)
    (takes : Takes rootOutline (gap ++ text) outline rest) : IsLegal text := by
  have noDoctype : "<!DOCTYPE".toList.isPrefixOf text = false :=
    not_isPrefixOf_of_beginsTag begins (by decide)
  obtain ⟨_, mid, front, afterFront⟩ := takes.exists_mid
  obtain rfl := ((takes_misc_gap isGap begins).unique front).2
  obtain ⟨declared, mid, doctype, afterDoctype⟩ := afterFront.exists_mid
  obtain ⟨rfl, rfl⟩ := (takes_accept_not noDoctype).unique doctype
  obtain ⟨_, mid, none, root⟩ := afterDoctype.exists_mid
  obtain ⟨rfl, rfl⟩ := none.eq_of_pure
  obtain ⟨_, mid, more, element⟩ := root.exists_mid
  obtain ⟨found, left, bracket, inside⟩ := element.exists_mid
  have front := (passes_misc _ _ _ more).trans (passes_accept (by decide) _ _ _ bracket)
  split at inside
  · obtain ⟨tokens, behind, taken, final⟩ := inside.exists_mid
    exact (front.trans (passes_rootElement _ _ _ taken)).isLegal (isLegal_of_takes_end final)
  · obtain ⟨tokens, behind, nothing, final⟩ := inside.exists_mid
    obtain ⟨rfl, rfl⟩ := nothing.eq_of_pure
    exact front.isLegal (isLegal_of_takes_end final)

theorem isLegal_of_takes_document {declaration : Bool} {gap text rest : List Char} {outline : Outline}
    (isGap : IsGap gap) (begins : BeginsTag text)
    (takes : Takes document ((if declaration then Markup.declaration.chars ++ gap else []) ++ text)
      outline rest) : IsLegal text := by
  rw [document_eq] at takes
  obtain ⟨declares, mid, saw, root⟩ := takes.exists_mid
  obtain ⟨rfl, rfl⟩ := (takes_sees _).unique saw
  cases declaration with
  | true =>
    have sees : "<?xml ".toList.isPrefixOf (Markup.declaration.chars ++ gap ++ text) = true := by
      rw [chars_declaration]
      rfl
    rw [if_pos rfl, if_pos sees, chars_declaration, List.append_assoc, List.append_assoc] at root
    obtain ⟨_, mid, opening, declared⟩ := root.exists_mid
    obtain rfl := ((takes_expect _).unique opening).2
    obtain ⟨_, mid, version, behind⟩ := declared.exists_mid
    obtain rfl := ((takes_declarationRest _).unique version).2
    exact isLegal_of_takes_rootOutline isGap begins behind
  | false =>
    have sees : "<?xml ".toList.isPrefixOf text = false :=
      not_isPrefixOf_of_beginsTag begins (by decide)
    rw [if_neg Bool.false_ne_true, List.nil_append, if_neg (Bool.eq_false_iff.1 sees)] at root
    exact isLegal_of_takes_rootOutline isGap_nil begins root

end Scanner

/-- A text that is a declaration or nothing, and then one that a tag begins, is only read without
illegal characters. -/
theorem isLegal_of_ofText {declaration : Bool} {gap text : List Char} {whole : String}
    {outline : Outline} (isGap : IsGap gap) (begins : BeginsTag text)
    (parts : whole.toList = (if declaration then Markup.declaration.chars ++ gap else []) ++ text)
    (read : Outline.ofText whole = .ok outline) : IsLegal text := by
  obtain ⟨⟨value, rest, le⟩, taken, -⟩ := exists_of_bind read
  have takes : Scanner.Takes Scanner.document _ value rest := ⟨le, taken⟩
  rw [withoutMark_of_parts begins parts, parts] at takes
  exact Scanner.isLegal_of_takes_document isGap begins takes

theorem legalText_of_escaped {text : String} (legal : IsLegal (escapedChars text)) : LegalText text := by
  intro c mem
  by_cases plain : c ∈ special
  · exact (show IsLegal special by decide) c plain
  · refine legal c (List.mem_flatMap.2 ⟨c, mem, ?_⟩)
    rw [escapedChar_of_plain plain]
    exact List.mem_singleton_self c

theorem Heading.holds_of_isLegal_front {heading : Heading} (legal : IsLegal heading.front) :
    heading.Holds LegalText := by
  intro field mem
  refine legalText_of_escaped fun c inValue => legal c ?_
  have inField : c ∈ Field.chars ⟨field.1.text, field.2⟩ := by simp [Field.chars, inValue]
  rw [front]
  exact List.mem_cons_of_mem _ (List.mem_append_right _ (List.mem_flatMap.2 ⟨field, mem, inField⟩))

mutual

/-- What a legal text writes is legal. -/
theorem Sheet.Writes.holds_of_isLegal {sheet : Sheet} {text : List Char} (writes : sheet.Writes text)
    (legal : IsLegal text) : sheet.Holds LegalText LegalText := by
  match sheet with
  | .leaf heading none =>
    rw [Sheet.Writes] at writes
    rw [Sheet.Holds]
    rw [writes, Heading.chars_single] at legal
    exact Heading.holds_of_isLegal_front (List.forall_mem_append.1 legal).1
  | .leaf heading (some content) =>
    rw [Sheet.Writes] at writes
    rw [Sheet.Holds]
    rw [writes, Heading.chars_opening] at legal
    simp only [IsLegal, List.forall_mem_append] at legal
    exact ⟨Heading.holds_of_isLegal_front legal.1.1.1, legalText_of_escaped legal.1.2⟩
  | .branch heading first rest =>
    rw [Sheet.Writes] at writes
    rw [Sheet.Holds]
    obtain ⟨lead, head, tail, last, -, here, behind, -, rfl⟩ := writes
    rw [Heading.chars_opening] at legal
    simp only [IsLegal, List.forall_mem_append] at legal
    obtain ⟨⟨⟨front, ⟨_, inFirst⟩, inRest⟩, _⟩, _⟩ := legal
    exact ⟨Heading.holds_of_isLegal_front front.1, Sheet.Writes.holds_of_isLegal here inFirst,
      WritesAll.holds_of_isLegal behind inRest⟩

theorem WritesAll.holds_of_isLegal {sheets : List Sheet} {text : List Char}
    (writes : WritesAll sheets text) (legal : IsLegal text) :
    HoldsAll LegalText LegalText sheets := by
  match sheets with
  | [] => rw [HoldsAll]; trivial
  | sheet :: rest =>
    rw [WritesAll] at writes
    rw [HoldsAll]
    obtain ⟨lead, head, tail, -, here, behind, rfl⟩ := writes
    simp only [IsLegal, List.forall_mem_append] at legal
    exact ⟨Sheet.Writes.holds_of_isLegal here legal.1.2, WritesAll.holds_of_isLegal behind legal.2⟩

end

end RelaxDoc.Xml
