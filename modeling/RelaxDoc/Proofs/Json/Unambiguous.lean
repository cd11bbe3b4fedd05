import RelaxDoc.Proofs.Json.Grammar
import RelaxDoc.Proofs.Xml.Unambiguous

/-! No text spells two values. What a part of a text spells is settled together with where the part
ends, reading from the front: a number ends where no character of numbers follows, and everything else
at a mark of its own. -/
namespace RelaxDoc.Json

/-- Two equal texts have the same stretch of characters of a class at their front, if none of the class
follows. -/
theorem stretch_unique_of_head? {p : Char → Bool} {one other more others : List Char}
    (inOne : ∀ c ∈ one, p c = true) (inOther : ∀ c ∈ other, p c = true)
    (endOne : ∀ c ∈ more.head?, p c = false) (endOther : ∀ c ∈ others.head?, p c = false)
    (same : one ++ more = other ++ others) : one = other ∧ more = others := by
  have taken {front back : List Char} (within : ∀ c ∈ front, p c = true)
      (ends : ∀ c ∈ back.head?, p c = false) : (front ++ back).takeWhile p = front := by
    rw [List.takeWhile_append_of_pos within]
    cases back with
    | nil => exact List.append_nil front
    | cons c rest =>
      rw [List.takeWhile_cons_of_neg (Bool.eq_false_iff.1 (ends c rfl)), List.append_nil]
  have fronts : one = other := by rw [← taken inOne endOne, same, taken inOther endOther]
  subst fronts
  exact ⟨rfl, List.append_cancel_left same⟩

/-- Two equal texts have the same optional part at their front, if the mark that it begins with does not
stand there otherwise. -/
theorem optional_unique {β : Type} {write : β → List Char} (marks : List Char)
    {rest rest' : List Char} {one other : Option β}
    (begins : ∀ b, ∃ c ∈ marks, ∃ more, write b = c :: more)
    (endOne : ∀ c ∈ rest.head?, c ∉ marks) (endOther : ∀ c ∈ rest'.head?, c ∉ marks)
    (each : ∀ b b', write b ++ rest = write b' ++ rest' → b = b' ∧ rest = rest')
    (same : one.elim [] write ++ rest = other.elim [] write ++ rest') :
    one = other ∧ rest = rest' := by
  have apart {b : β} {plain behind : List Char} (ends : ∀ c ∈ plain.head?, c ∉ marks) :
      plain ≠ write b ++ behind := by
    rintro rfl
    obtain ⟨c, mark, more, written⟩ := begins b
    exact ends c (by rw [written]; rfl) mark
  cases one with
  | none =>
    cases other with
    | none => exact ⟨rfl, same⟩
    | some b => exact absurd same (apart endOne)
  | some b =>
    cases other with
    | none => exact absurd same.symm (apart endOther)
    | some b' =>
      obtain ⟨rfl, behind⟩ := each b b' same
      exact ⟨rfl, behind⟩

section Numbers

/-- The characters that numbers are written with. -/
def isNumeric (c : Char) : Bool := c.isDigit || c ∈ ['+', '-', '.', 'e', 'E']

/-- A text at which a number in front of it ends. -/
def Stops (rest : List Char) : Prop := ∀ c ∈ rest.head?, isNumeric c = false

variable {rest rest' : List Char}

theorem Stops.isDigit (stops : Stops rest) : ∀ c ∈ rest.head?, c.isDigit = false :=
  fun c first => (Bool.or_eq_false_iff.1 (stops c first)).1

theorem Stops.not_mem {marks : List Char} (numeric : ∀ c ∈ marks, isNumeric c = true)
    (stops : Stops rest) : ∀ c ∈ rest.head?, c ∉ marks := by
  intro c first mark
  have plain := stops c first
  rw [numeric c mark] at plain
  cases plain

theorem Digits.head? (digits : Digits) (rest : List Char) :
    ∀ c ∈ (digits.chars ++ rest).head?, c.isDigit = true := by
  intro c first
  obtain ⟨d, others, chars⟩ := List.exists_cons_of_ne_nil digits.filled
  rw [chars] at first
  cases first
  exact digits.isDigit c (by rw [chars]; exact List.mem_cons_self ..)

theorem Digits.head?_not_mem {marks : List Char} (plain : ∀ c ∈ marks, c.isDigit = false)
    (digits : Digits) (rest : List Char) : ∀ c ∈ (digits.chars ++ rest).head?, c ∉ marks := by
  intro c first mark
  have digit := digits.head? rest c first
  rw [plain c mark] at digit
  cases digit

theorem Digits.unique {one other : Digits} (endOne : ∀ c ∈ rest.head?, c.isDigit = false)
    (endOther : ∀ c ∈ rest'.head?, c.isDigit = false)
    (same : one.chars ++ rest = other.chars ++ rest') : one = other ∧ rest = rest' := by
  obtain ⟨chars, behind⟩ := stretch_unique_of_head? one.isDigit other.isDigit endOne endOther same
  exact ⟨Digits.ext chars, behind⟩

theorem sign_unique {one other : Option Sign} {digits digits' : Digits}
    (same : one.elim [] Sign.chars ++ (digits.chars ++ rest) =
      other.elim [] Sign.chars ++ (digits'.chars ++ rest')) :
    one = other ∧ digits.chars ++ rest = digits'.chars ++ rest' := by
  refine optional_unique ['+', '-'] ?_ (digits.head?_not_mem (by simp) rest)
    (digits'.head?_not_mem (by simp) rest') ?_ same
  · rintro (_ | _)
    · exact ⟨'+', by decide, [], rfl⟩
    · exact ⟨'-', by decide, [], rfl⟩
  · rintro (_ | _) (_ | _) written
    · exact ⟨rfl, (List.cons.inj written).2⟩
    · exact absurd (List.cons.inj written).1 (by decide)
    · exact absurd (List.cons.inj written).1 (by decide)
    · exact ⟨rfl, (List.cons.inj written).2⟩

theorem Exponent.unique {one other : Exponent} (endOne : Stops rest) (endOther : Stops rest')
    (same : one.chars ++ rest = other.chars ++ rest') : one = other ∧ rest = rest' := by
  obtain ⟨letters, behind⟩ := List.cons.inj same
  have split : one.sign.elim [] Sign.chars ++ (one.digits.chars ++ rest) =
      other.sign.elim [] Sign.chars ++ (other.digits.chars ++ rest') := by
    rw [← List.append_assoc, ← List.append_assoc]
    exact behind
  obtain ⟨signs, further⟩ := sign_unique split
  obtain ⟨digits, ends⟩ := Digits.unique endOne.isDigit endOther.isDigit further
  exact ⟨Exponent.ext letters signs digits, ends⟩

namespace Numeral

variable {one other : Numeral}

theorem exponent_unique (endOne : Stops rest) (endOther : Stops rest')
    (same : one.exponentChars ++ rest = other.exponentChars ++ rest') :
    one.exponent = other.exponent ∧ rest = rest' :=
  optional_unique ['e', 'E']
    (fun exponent => ⟨exponent.letter, exponent.letter_mem, _, rfl⟩)
    (endOne.not_mem (by simp [isNumeric])) (endOther.not_mem (by simp [isNumeric]))
    (fun _ _ => Exponent.unique endOne endOther) same

theorem exponentChars_head? (numeral : Numeral) (stops : Stops rest) :
    ∀ c ∈ (numeral.exponentChars ++ rest).head?, c.isDigit = false ∧ c ∉ ['.'] := by
  intro c first
  rw [exponentChars] at first
  cases exponent : numeral.exponent with
  | none =>
    rw [exponent] at first
    exact ⟨stops.isDigit c first, stops.not_mem (by simp [isNumeric]) c first⟩
  | some exponent' =>
    rw [exponent] at first
    have letters : ∀ c ∈ ['e', 'E'], c.isDigit = false ∧ c ∉ ['.'] := by simp
    cases first
    exact letters _ exponent'.letter_mem

theorem fraction_unique (endOne : Stops rest) (endOther : Stops rest')
    (same : one.fractionChars ++ (one.exponentChars ++ rest) =
      other.fractionChars ++ (other.exponentChars ++ rest')) :
    one.fraction = other.fraction ∧ one.exponentChars ++ rest = other.exponentChars ++ rest' :=
  optional_unique ['.'] (fun digits => ⟨'.', List.mem_singleton_self _, digits.chars, rfl⟩)
    (fun c first => (one.exponentChars_head? endOne c first).2)
    (fun c first => (other.exponentChars_head? endOther c first).2)
    (fun _ _ written => Digits.unique
      (fun c first => (one.exponentChars_head? endOne c first).1)
      (fun c first => (other.exponentChars_head? endOther c first).1) (List.cons.inj written).2) same

theorem fractionChars_head? (numeral : Numeral) (stops : Stops rest) :
    ∀ c ∈ (numeral.fractionChars ++ (numeral.exponentChars ++ rest)).head?, c.isDigit = false := by
  intro c first
  rw [fractionChars] at first
  cases fraction : numeral.fraction with
  | none =>
    rw [fraction] at first
    exact (numeral.exponentChars_head? stops c first).1
  | some digits =>
    rw [fraction] at first
    cases first
    rfl

theorem negative_eq (numeral : Numeral) : numeral.negative = !numeral.signChars.isEmpty := by
  rw [signChars]
  cases numeral.negative <;> rfl

theorem unique (endOne : Stops rest) (endOther : Stops rest')
    (same : one.chars ++ rest = other.chars ++ rest') : one = other ∧ rest = rest' := by
  have split : one.signChars ++ (one.whole.chars ++
      (one.fractionChars ++ (one.exponentChars ++ rest))) = other.signChars ++ (other.whole.chars ++
        (other.fractionChars ++ (other.exponentChars ++ rest'))) := by
    simpa only [chars, List.append_assoc] using same
  have minus (numeral : Numeral) : ∀ c ∈ numeral.signChars, decide (c ∈ ['-']) = true := by
    intro c member
    rw [signChars] at member
    split at member
    · exact decide_eq_true member
    · cases member
  have ends (numeral : Numeral) (behind : List Char) :
      ∀ c ∈ (numeral.whole.chars ++ behind).head?, decide (c ∈ ['-']) = false :=
    fun c first => decide_eq_false (numeral.whole.head?_not_mem (by simp) behind c first)
  obtain ⟨signs, behind⟩ := stretch_unique_of_head? (minus one) (minus other) (ends one _)
    (ends other _) split
  obtain ⟨wholes, behind⟩ := Digits.unique (one.fractionChars_head? endOne)
    (other.fractionChars_head? endOther) behind
  obtain ⟨fractions, behind⟩ := fraction_unique endOne endOther behind
  obtain ⟨exponents, behind⟩ := exponent_unique endOne endOther behind
  have negatives : one.negative = other.negative := by rw [negative_eq, signs, ← negative_eq]
  exact ⟨Numeral.ext negatives wholes fractions exponents, behind⟩

end Numeral

end Numbers

section Strings

variable {c d : Char} {cs ds rest rest' : List Char}

/-- The character that a text begins with the spelling of, and what stands behind it. -/
def firstChar : List Char → Option Char × List Char
  | [] => (none, [])
  | '\\' :: 'u' :: rest =>
    let n := Text.numberIn 16 (rest.take 4)
    if n < 0xd800 ∨ 0xdc00 ≤ n then (some (Char.ofNat n), rest.drop 4)
    else
      let low := Text.numberIn 16 ((rest.drop 6).take 4) - 0xdc00
      (some (Char.ofNat (0x10000 + (n - 0xd800) * 0x400 + low)), rest.drop 10)
  | '\\' :: letter :: rest => (escapes.lookup letter, rest)
  | c :: rest => (some c, rest)

theorem lookup_of_mem_escapes {letter : Char} (known : (letter, c) ∈ escapes) :
    escapes.lookup letter = some c ∧ letter ≠ 'u' := by
  have each : ∀ entry ∈ escapes, escapes.lookup entry.1 = some entry.2 ∧ entry.1 ≠ 'u' := by
    simp [escapes, List.lookup_cons]
  exact each _ known

theorem IsQuad.take_append {quad : List Char} {n : Nat} (number : IsQuad quad n) (rest : List Char) :
    (quad ++ rest).take 4 = quad := by rw [← number.length, List.take_left]

theorem IsQuad.drop_append {quad : List Char} {n : Nat} (number : IsQuad quad n) (rest : List Char) :
    (quad ++ rest).drop 4 = rest := by rw [← number.length, List.drop_left]

theorem SpellsChar.firstChar_append (spells : SpellsChar c cs) (rest : List Char) :
    firstChar (cs ++ rest) = (some c, rest) := by
  cases spells with
  | plain low special =>
    have other : c ≠ '\\' := fun backslash => special (by simp [backslash])
    rw [List.singleton_append, firstChar]
    · exact fun _ same => absurd same other
    · exact fun _ _ same => absurd same other
  | escape known =>
    obtain ⟨found, other⟩ := lookup_of_mem_escapes known
    rw [List.cons_append, List.cons_append, List.nil_append, firstChar, found]
    exact other
  | unit number =>
    have valid : c.toNat < 0xd800 ∨ 0xdfff < c.toNat ∧ c.toNat < 0x110000 := c.valid
    rw [List.cons_append, List.cons_append, firstChar]
    simp only [number.take_append, number.drop_append, number.value]
    rw [if_pos (by omega), Char.ofNat_toNat]
  | @surrogates front back high low first second small _ number =>
    -- The second number stands behind the four digits of the first one and two more characters.
    have behind : (front ++ '\\' :: 'u' :: back ++ rest).drop 6 = back ++ rest := by
      rw [List.append_assoc, ← List.drop_drop (i := 2) (j := 4), first.drop_append]
      rfl
    have further : (front ++ '\\' :: 'u' :: back ++ rest).drop 10 = rest := by
      rw [← List.drop_drop (i := 4) (j := 6), behind, second.drop_append]
    rw [List.cons_append, List.cons_append, firstChar]
    simp only [behind, further, second.take_append, second.value]
    rw [List.append_assoc, first.take_append, first.value, if_neg (by omega), Nat.add_sub_cancel_left,
      Nat.add_sub_cancel_left, ← number, Char.ofNat_toNat]

theorem SpellsChar.unique (one : SpellsChar c cs) (other : SpellsChar d ds)
    (same : cs ++ rest = ds ++ rest') : c = d ∧ rest = rest' := by
  have read := one.firstChar_append rest
  rw [same, other.firstChar_append rest'] at read
  cases read
  exact ⟨rfl, rfl⟩

/-- No character is spelled by a text that begins with a quotation mark. -/
theorem SpellsChar.ne_quote (spells : SpellsChar c cs) : cs ++ rest ≠ '"' :: rest' := by
  intro same
  cases spells with
  | plain low special =>
    rw [(List.cons.inj same).1] at special
    exact special (List.mem_cons_self ..)
  | escape known => exact absurd (List.cons.inj same).1 (by decide)
  | unit number => exact absurd (List.cons.inj same).1 (by decide)
  | surrogates first second => exact absurd (List.cons.inj same).1 (by decide)

theorem SpellsChars.unique {one other : List Char} (spells : SpellsChars one cs)
    (spells' : SpellsChars other ds) (same : cs ++ '"' :: rest = ds ++ '"' :: rest') :
    one = other ∧ rest = rest' := by
  induction spells generalizing other ds with
  | nil =>
    cases spells' with
    | nil => exact ⟨rfl, (List.cons.inj same).2⟩
    | cons first _ =>
      rw [List.append_assoc] at same
      exact absurd same.symm first.ne_quote
  | cons first _ ih =>
    rw [List.append_assoc] at same
    cases spells' with
    | nil => exact absurd same first.ne_quote
    | cons first' more' =>
      rw [List.append_assoc] at same
      obtain ⟨rfl, behind⟩ := first.unique first' same
      obtain ⟨rfl, ends⟩ := ih more' behind
      exact ⟨rfl, ends⟩

theorem SpellsString.unique {one other : String} (spells : SpellsString one cs)
    (spells' : SpellsString other ds) (same : cs ++ rest = ds ++ rest') :
    one = other ∧ rest = rest' := by
  cases spells with
  | quoted chars =>
    cases spells' with
    | quoted chars' =>
      rw [List.cons_append, List.cons_append, List.append_assoc, List.append_assoc] at same
      obtain ⟨texts, ends⟩ := chars.unique chars' (List.cons.inj same).2
      exact ⟨String.toList_inj.1 texts, ends⟩

end Strings

section Rows

variable {α : Type} {spells : α → List Char → Prop} {rest rest' : List Char}

/-- A text that begins with a spelling of `a` begins with a spelling of nothing else, and the spelling
ends in one place. -/
def Definite (spells : α → List Char → Prop) (a : α) : Prop :=
  ∀ ⦃b cs ds rest rest'⦄, spells a cs → spells b ds → Stops rest → Stops rest' →
    cs ++ rest = ds ++ rest' → a = b ∧ rest = rest'

/-- The marks inside and behind rows. -/
def separators : List Char := [',', ':', ']', '\x7d']

/-- The characters with which no value and no member begins. -/
def delimiters : List Char := spaces ++ separators

/-- Texts that begin with something else than a delimiter. -/
def Begins (cs : List Char) : Prop := ∃ c more, cs = c :: more ∧ c ∉ delimiters

theorem Begins.append {cs : List Char} (begins : Begins cs) (rest : List Char) :
    Begins (cs ++ rest) := by
  obtain ⟨c, more, rfl, plain⟩ := begins
  exact ⟨c, more ++ rest, rfl, plain⟩

/-- White space ends at a character that is none. -/
theorem gap_unique {gap gap' more others : List Char} {c d : Char} (isGap : IsGap gap)
    (isGap' : IsGap gap') (ends : c ∉ spaces) (ends' : d ∉ spaces)
    (same : gap ++ c :: more = gap' ++ d :: others) : c = d ∧ more = others :=
  (Xml.stretch_unique isGap isGap' ends ends' same).2

theorem lead_unique {lead lead' cs ds : List Char} (isGap : IsGap lead) (isGap' : IsGap lead')
    (begins : Begins cs) (begins' : Begins ds) (same : lead ++ cs = lead' ++ ds) : cs = ds := by
  obtain ⟨c, more, rfl, plain⟩ := begins
  obtain ⟨d, others, rfl, plain'⟩ := begins'
  obtain ⟨rfl, rfl⟩ := gap_unique isGap isGap' (fun space => plain (List.mem_append_left _ space))
    (fun space => plain' (List.mem_append_left _ space)) same
  rfl

theorem not_space_of_separator {mark : Char} (separates : mark ∈ separators) : mark ∉ spaces := by
  have apart : ∀ mark ∈ separators, mark ∉ spaces := by simp [separators, spaces]
  exact apart mark separates

/-- White space in front of a mark and the mark are no beginning of a value. -/
theorem lead_ne_gap {lead gap cs more : List Char} {mark : Char} (isGap : IsGap lead)
    (isGap' : IsGap gap) (begins : Begins cs) (separates : mark ∈ separators) :
    lead ++ cs ≠ gap ++ mark :: more := by
  intro same
  obtain ⟨c, others, rfl, plain⟩ := begins
  obtain ⟨rfl, -⟩ := gap_unique isGap isGap' (fun space => plain (List.mem_append_left _ space))
    (not_space_of_separator separates) same
  exact plain (List.mem_append_right _ separates)

theorem stops_of_delimiter (first : ∀ c ∈ rest.head?, c ∈ delimiters) : Stops rest := by
  have plain : ∀ c ∈ delimiters, isNumeric c = false := by
    simp [delimiters, spaces, separators, isNumeric]
  exact fun c head => plain c (first c head)

theorem IsGap.stops {gap : List Char} (isGap : IsGap gap) : Stops gap :=
  stops_of_delimiter fun c head => List.mem_append_left _ (isGap c (List.mem_of_mem_head? head))

theorem IsGap.stops_append {gap : List Char} {mark : Char} (isGap : IsGap gap)
    (separates : mark ∈ separators) : Stops (gap ++ mark :: rest) := by
  apply stops_of_delimiter
  intro c head
  cases gap with
  | nil =>
    cases head
    exact List.mem_append_right _ separates
  | cons d others =>
    rw [← Option.some.inj head]
    exact List.mem_append_left _ (isGap d (List.mem_cons_self ..))

/-- The mark that ends a row. -/
structure Closes (mark : Char) : Prop where
  separates : mark ∈ separators
  ne_comma : mark ≠ ','

theorem Closes.not_space {mark : Char} (closes : Closes mark) : mark ∉ spaces :=
  not_space_of_separator closes.separates

theorem Further.stops {items : List α} {cs : List Char} (further : Further spells items cs)
    {mark : Char} (closes : Closes mark) : Stops (cs ++ mark :: rest) := by
  cases further with
  | done isGap => exact isGap.stops_append closes.separates
  | next isGap =>
    rw [List.append_assoc, List.cons_append]
    exact isGap.stops_append (List.mem_cons_self ..)

theorem Further.unique {mark : Char} (closes : Closes mark)
    (begins : ∀ a cs, spells a cs → Begins cs) {items others : List α}
    (definite : ∀ a ∈ items, Definite spells a) {cs ds : List Char}
    (further : Further spells items cs) (further' : Further spells others ds)
    (same : cs ++ mark :: rest = ds ++ mark :: rest') : items = others ∧ rest = rest' := by
  have comma : ',' ∉ spaces := not_space_of_separator (List.mem_cons_self ..)
  -- At the end of each entry, a comma in one text cannot stand where the other has its closing mark.
  induction further generalizing others ds with
  | done isGap =>
    cases further' with
    | done isGap' => exact ⟨rfl, (gap_unique isGap isGap' closes.not_space closes.not_space same).2⟩
    | next isGap' =>
      rw [List.append_assoc, List.cons_append] at same
      exact absurd (gap_unique isGap isGap' closes.not_space comma same).1 closes.ne_comma
  | next isGap lead spelled further ih =>
    simp only [List.append_assoc, List.cons_append] at same
    cases further' with
    | done isGap' =>
      exact absurd (gap_unique isGap isGap' comma closes.not_space same).1.symm closes.ne_comma
    | next isGap' lead' spelled' further' =>
      simp only [List.append_assoc, List.cons_append] at same
      have entries := (gap_unique isGap isGap' comma comma same).2
      have spellings := lead_unique lead lead' ((begins _ _ spelled).append _)
        ((begins _ _ spelled').append _) entries
      obtain ⟨rfl, behind⟩ := definite _ (List.mem_cons_self ..) spelled spelled'
        (further.stops closes) (further'.stops closes) spellings
      obtain ⟨rfl, ends⟩ := ih (fun a member => definite a (List.mem_cons_of_mem _ member)) further'
        behind
      exact ⟨rfl, ends⟩

theorem Row.unique {mark : Char} (closes : Closes mark)
    (begins : ∀ a cs, spells a cs → Begins cs) {items others : List α}
    (definite : ∀ a ∈ items, Definite spells a) {cs ds : List Char}
    (row : Row spells items cs) (row' : Row spells others ds)
    (same : cs ++ mark :: rest = ds ++ mark :: rest') : items = others ∧ rest = rest' := by
  cases row with
  | empty isGap =>
    cases row' with
    | empty isGap' => exact ⟨rfl, (gap_unique isGap isGap' closes.not_space closes.not_space same).2⟩
    | filled lead' spelled' =>
      rw [List.append_assoc, List.append_assoc] at same
      exact absurd same.symm
        (lead_ne_gap lead' isGap ((begins _ _ spelled').append _) closes.separates)
  | filled lead spelled further =>
    rw [List.append_assoc, List.append_assoc] at same
    cases row' with
    | empty isGap' =>
      exact absurd same (lead_ne_gap lead isGap' ((begins _ _ spelled).append _) closes.separates)
    | filled lead' spelled' further' =>
      rw [List.append_assoc, List.append_assoc] at same
      have spellings := lead_unique lead lead' ((begins _ _ spelled).append _)
        ((begins _ _ spelled').append _) same
      obtain ⟨rfl, behind⟩ := definite _ (List.mem_cons_self ..) spelled spelled'
        (further.stops closes) (further'.stops closes) spellings
      obtain ⟨rfl, ends⟩ := further.unique closes begins
        (fun a member => definite a (List.mem_cons_of_mem _ member)) further' behind
      exact ⟨rfl, ends⟩

theorem SpellsString.begins {text : String} {cs : List Char} (spelled : SpellsString text cs) :
    Begins cs := by
  cases spelled with
  | quoted chars => exact ⟨'"', _, rfl, by decide⟩

theorem Member.begins {member : String × α} {cs : List Char} (spelled : Member spells member cs) :
    Begins cs := by
  cases spelled with
  | named key => exact key.begins.append _

theorem Member.definite (begins : ∀ a cs, spells a cs → Begins cs) {name : String} {a : α}
    (definite : Definite spells a) : Definite (Member spells) (name, a) := by
  have colon : ':' ∉ spaces := by decide
  intro member cs ds rest rest' spelled spelled' stops stops' same
  cases spelled with
  | named key isGap lead value =>
    cases spelled' with
    | named key' isGap' lead' value' =>
      simp only [List.append_assoc, List.cons_append] at same
      obtain ⟨rfl, behind⟩ := key.unique key' same
      have values := (gap_unique isGap isGap' colon colon behind).2
      have spellings := lead_unique lead lead' ((begins _ _ value).append _)
        ((begins _ _ value').append _) values
      obtain ⟨rfl, ends⟩ := definite value value' stops stops' spellings
      exact ⟨rfl, ends⟩

end Rows

section Values

/-- The forms of values, which their first characters tell apart. -/
inductive Form where
  | null
  | bool
  | number
  | string
  | array
  | object
  deriving DecidableEq

/-- The form of a value. -/
def Value.form : Value → Form
  | .null => .null
  | .bool _ => .bool
  | .number _ => .number
  | .string _ => .string
  | .array _ => .array
  | .object _ => .object

/-- The form of the values that begin with a character. -/
def formOf : Char → Form
  | 'n' => .null
  | 't' | 'f' => .bool
  | '"' => .string
  | '[' => .array
  | '\x7b' => .object
  | _ => .number

theorem formOf_of_isDigit {c : Char} (digit : c.isDigit = true) : formOf c = .number := by
  unfold formOf
  split <;> first | rfl | exact absurd digit (by decide)

theorem Numeral.first (numeral : Numeral) :
    ∃ c more, numeral.chars = c :: more ∧ formOf c = .number ∧ c ∉ delimiters := by
  rw [chars, signChars]
  cases numeral.negative with
  | true => exact ⟨'-', _, rfl, rfl, by decide⟩
  | false =>
    obtain ⟨c, more, digits⟩ := List.exists_cons_of_ne_nil numeral.whole.filled
    have digit := numeral.whole.isDigit c (by rw [digits]; exact List.mem_cons_self ..)
    have plain : ∀ mark ∈ delimiters, mark.isDigit = false := by
      simp [delimiters, spaces, separators]
    refine ⟨c, _, by rw [digits]; rfl, formOf_of_isDigit digit, fun mark => ?_⟩
    rw [plain c mark] at digit
    cases digit

theorem Spells.first {value : Value} {cs : List Char} (spelled : Spells value cs) :
    ∃ c more, cs = c :: more ∧ formOf c = value.form ∧ c ∉ delimiters := by
  cases spelled with
  | null | yes | no => exact ⟨_, _, rfl, rfl, by decide⟩
  | number numeral => exact numeral.first
  | string spelled =>
    cases spelled with
    | quoted chars => exact ⟨'"', _, rfl, rfl, by decide⟩
  | array row => exact ⟨'[', _, rfl, rfl, by decide⟩
  | object row => exact ⟨'\x7b', _, rfl, rfl, by decide⟩

theorem Spells.begins (value : Value) (cs : List Char) (spelled : Spells value cs) : Begins cs := by
  obtain ⟨c, more, same, -, plain⟩ := spelled.first
  exact ⟨c, more, same, plain⟩

theorem Spells.form_unique {value other : Value} {cs ds rest rest' : List Char}
    (spelled : Spells value cs) (spelled' : Spells other ds) (same : cs ++ rest = ds ++ rest') :
    value.form = other.form := by
  obtain ⟨c, more, rfl, form, -⟩ := spelled.first
  obtain ⟨d, others, rfl, form', -⟩ := spelled'.first
  rw [← form, (List.cons.inj same).1, form']

theorem null_definite : Definite Spells .null := by
  intro other cs ds rest rest' spelled spelled' _ _ same
  have form := spelled.form_unique spelled' same
  cases spelled
  cases spelled' with
  | null => exact ⟨rfl, List.append_cancel_left same⟩
  | _ => cases form

theorem bool_definite (truth : Bool) : Definite Spells (.bool truth) := by
  intro other cs ds rest rest' spelled spelled' _ _ same
  have form := spelled.form_unique spelled' same
  cases spelled with
  | yes =>
    cases spelled' with
    | yes => exact ⟨rfl, List.append_cancel_left same⟩
    | no => exact absurd (List.cons.inj same).1 (by decide)
    | _ => cases form
  | no =>
    cases spelled' with
    | no => exact ⟨rfl, List.append_cancel_left same⟩
    | yes => exact absurd (List.cons.inj same).1 (by decide)
    | _ => cases form

theorem number_definite (n : ℚ) : Definite Spells (.number n) := by
  intro other cs ds rest rest' spelled spelled' stops stops' same
  have form := spelled.form_unique spelled' same
  cases spelled
  cases spelled' with
  | number numeral =>
    obtain ⟨rfl, behind⟩ := Numeral.unique stops stops' same
    exact ⟨rfl, behind⟩
  | _ => cases form

theorem string_definite (text : String) : Definite Spells (.string text) := by
  intro other cs ds rest rest' spelled spelled' _ _ same
  have form := spelled.form_unique spelled' same
  cases spelled with
  | string spelling =>
    cases spelled' with
    | string spelling' =>
      obtain ⟨rfl, behind⟩ := spelling.unique spelling' same
      exact ⟨rfl, behind⟩
    | _ => cases form

theorem array_definite {items : List Value} (definite : ∀ item ∈ items, Definite Spells item) :
    Definite Spells (.array items) := by
  have closes : Closes ']' := ⟨by decide, by decide⟩
  intro other cs ds rest rest' spelled spelled' _ _ same
  have form := spelled.form_unique spelled' same
  cases spelled with
  | array row =>
    cases spelled' with
    | array row' =>
      simp only [List.append_assoc, List.cons_append, List.nil_append] at same
      obtain ⟨rfl, behind⟩ := row.unique closes Spells.begins definite row' (List.cons.inj same).2
      exact ⟨rfl, behind⟩
    | _ => cases form

theorem object_definite {members : List (String × Value)}
    (definite : ∀ member ∈ members, Definite Spells member.2) :
    Definite Spells (.object members) := by
  have closes : Closes '\x7d' := ⟨by decide, by decide⟩
  intro other cs ds rest rest' spelled spelled' _ _ same
  have form := spelled.form_unique spelled' same
  cases spelled with
  | object row =>
    cases spelled' with
    | object row' =>
      simp only [List.append_assoc, List.cons_append, List.nil_append] at same
      obtain ⟨rfl, behind⟩ := row.unique closes (fun _ _ spelled => spelled.begins)
        (fun member among => Member.definite Spells.begins (definite member among)) row'
        (List.cons.inj same).2
      exact ⟨rfl, behind⟩
    | _ => cases form

theorem sizeOf_lt_of_member {members : List (String × Value)} {member : String × Value}
    (among : member ∈ members) : sizeOf member.2 < sizeOf members := by
  have smaller := List.sizeOf_lt_of_mem among
  have parts : sizeOf member = 1 + sizeOf member.1 + sizeOf member.2 := rfl
  omega

/-- Whatever a value is spelled as, its entries are settled before it is. -/
theorem definite : ∀ value, Definite Spells value
  | .null => null_definite
  | .bool truth => bool_definite truth
  | .number n => number_definite n
  | .string text => string_definite text
  | .array items => array_definite fun item _ => definite item
  | .object members => object_definite fun member _ => definite member.2
termination_by value => sizeOf value
decreasing_by
  · have smaller := List.sizeOf_lt_of_mem ‹item ∈ items›
    simp only [Value.array.sizeOf_spec]
    omega
  · have smaller := sizeOf_lt_of_member ‹member ∈ members›
    simp only [Value.object.sizeOf_spec]
    omega

/-- A text denotes at most one value. -/
theorem Denotes.unique {text : String} {value other : Value} (denotes : Denotes text value)
    (denotes' : Denotes text other) : value = other := by
  obtain ⟨lead, cs, gap, isLead, spelled, isGap, chars⟩ := denotes
  obtain ⟨lead', ds, gap', isLead', spelled', isGap', chars'⟩ := denotes'
  have spellings := lead_unique isLead isLead' ((Spells.begins _ _ spelled).append gap)
    ((Spells.begins _ _ spelled').append gap') (chars.symm.trans chars')
  exact (definite value spelled spelled' isGap.stops isGap'.stops spellings).1

end Values

end RelaxDoc.Json
