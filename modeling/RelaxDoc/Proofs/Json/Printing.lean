import RelaxDoc.Json.Printer
import RelaxDoc.Proofs.Json.Unambiguous

/-! Printed values. The compact and the indented text of a value spell the same: they differ in white
space only. -/
namespace RelaxDoc.Json

mutual

/-- The value that is printed. -/
def value : Json → Value
  | .null => .null
  | .number n => .number n
  | .string text => .string text
  | .array items => .array (values items)
  | .object members => .object (namedValues members)

/-- The values of items. -/
def values : List Json → List Value
  | [] => []
  | item :: rest => value item :: values rest

/-- The values of members, with their names. -/
def namedValues : List (String × Json) → List (String × Value)
  | [] => []
  | member :: rest => namedValue member :: namedValues rest

/-- The value of a member, with its name. -/
def namedValue : String × Json → String × Value
  | (name, item) => (name, value item)

end

theorem values_eq_map (items : List Json) : values items = items.map value := by
  induction items with
  | nil => rfl
  | cons item rest ih => rw [values, ih, List.map_cons]

section Leaves

theorem hexDigit_spells : ∀ n < 16,
    Text.isHexDigit (hexDigit n) = true ∧ Text.hexValue? (hexDigit n) = some n := by decide

theorem lookup_shortEscapes {c letter : Char} (found : shortEscapes.lookup c = some letter) :
    (letter, c) ∈ escapes := by
  have listed : ∀ entry ∈ shortEscapes, (entry.2, entry.1) ∈ escapes := by simp [shortEscapes, escapes]
  obtain ⟨front, back, split, -⟩ := List.lookup_eq_some_iff.1 found
  exact listed (c, letter) (by rw [split]; exact List.mem_append_right _ (List.mem_cons_self ..))

theorem isQuad_of_lt {n : Nat} (small : n < 0x100) :
    IsQuad ['0', '0', hexDigit (n / 16), hexDigit (n % 16)] n := by
  have zero : Text.isHexDigit '0' = true ∧ Text.hexValue? '0' = some 0 := by decide
  have high := hexDigit_spells (n / 16) (by omega)
  have low := hexDigit_spells (n % 16) (by omega)
  refine ⟨rfl, by simp [zero.1, high.1, low.1], ?_⟩
  simp only [Text.numberIn, List.foldl_cons, List.foldl_nil, zero.2, high.2, low.2, Option.getD_some]
  omega

theorem spellsChar_escapedChar (c : Char) : SpellsChar c (escapedChar c) := by
  rw [escapedChar]
  split
  · rename_i letter found
    exact .escape (lookup_shortEscapes found)
  · rename_i missing
    split
    · rename_i control
      exact .unit (isQuad_of_lt (by omega))
    · rename_i printed
      have found : ∀ c ∈ ['"', '\\'], shortEscapes.lookup c ≠ none := by
        simp [shortEscapes, List.lookup_cons]
      exact .plain (by omega) fun special => found c special missing

theorem spellsString_quoted (text : String) : SpellsString text (quoted text) := by
  have chars : SpellsChars text.toList (text.toList.flatMap escapedChar) := by
    induction text.toList with
    | nil => exact .nil
    | cons c rest ih => exact .cons (spellsChar_escapedChar c) ih
  exact .quoted chars

/-- The digits of a number are no longer than they have to be. -/
theorem toDigits_proper (n : Nat) (zero : (Nat.toDigits 10 n).head? = some '0') :
    Nat.toDigits 10 n = ['0'] := by
  induction n using Nat.strongRecOn with
  | ind n ih =>
    by_cases small : n < 10
    · rw [Nat.toDigits_of_lt_base small] at zero ⊢
      rw [Option.some.inj zero]
    · have shorter := Nat.toDigits_of_base_le (b := 10) (n := n) (by decide) (by omega)
      have front : (Nat.toDigits 10 (n / 10)).head? = some '0' := by
        obtain ⟨first, more, chars⟩ := List.exists_cons_of_ne_nil
          (Nat.toDigits_ne_nil (n := n / 10) (b := 10))
        rw [shorter, chars] at zero
        rw [chars]
        exact zero
      have nothing : n / 10 = 0 := by
        rw [← Nat.ofDigitChars_ten_toDigits (n := n / 10), ih (n / 10) (by omega) front]
        rfl
      omega

/-- The number that is printed for a natural number. -/
def numeral (n : Nat) : Numeral where
  negative := false
  whole :=
    { chars := digits n
      filled := Nat.toDigits_ne_nil
      isDigit := fun _ => Nat.isDigit_of_mem_toDigits (by decide) (by decide) }
  fraction := none
  exponent := none
  proper := toDigits_proper n

theorem spells_digits (n : Nat) : Spells (.number n) (digits n) := by
  have value : (numeral n).value = n := by
    simp [Numeral.value, numeral, Numeral.fractionDigits, digitsValue, digits,
      Nat.ofDigitChars_ten_toDigits]
  have chars : (numeral n).chars = digits n := by
    simp [Numeral.chars, numeral, Numeral.signChars, Numeral.fractionChars, Numeral.exponentChars]
  have spelled := Spells.number (numeral n)
  rwa [value, chars] at spelled

end Leaves

section Rows

variable {α : Type} {spells : α → List Char → Prop}

theorem isGap_nil : IsGap [] := nofun

theorem isGap_space : IsGap [' '] := by
  intro c member
  rw [List.mem_singleton.1 member]
  exact List.mem_cons_self ..

theorem isGap_lineBreak (level : Nat) : IsGap (lineBreak level) := by
  intro c member
  rcases List.mem_cons.1 member with rfl | space
  · exact List.mem_cons_of_mem _ (List.mem_cons_of_mem _ (List.mem_cons_self ..))
  · rw [List.eq_of_mem_replicate space]
    exact List.mem_cons_self ..

theorem Row.last {a : α} {lead cs gap : List Char} (isLead : IsGap lead) (spelled : spells a cs)
    (isGap : IsGap gap) : Row spells [a] (lead ++ (cs ++ gap)) := .filled isLead spelled (.done isGap)

theorem Row.cons {a b : α} {rest : List α} {lead cs ds : List Char} (isLead : IsGap lead)
    (spelled : spells a cs) (row : Row spells (b :: rest) ds) :
    Row spells (a :: b :: rest) (lead ++ (cs ++ ',' :: ds)) := by
  cases row with
  | filled isLead' spelled' further =>
    exact .filled isLead spelled (.next isGap_nil isLead' spelled' further)

end Rows

mutual

theorem spells_compactChars : ∀ json, Spells (value json) (compactChars json)
  | .null => .null
  | .number n => spells_digits n
  | .string text => .string (spellsString_quoted text)
  | .array items => .array (row_compactItems items)
  | .object members => .object (row_compactMembers members)

theorem row_compactItems : ∀ items, Row Spells (values items) (compactItems items)
  | [] => .empty isGap_nil
  | [last] => by
    have row := Row.last isGap_nil (spells_compactChars last) isGap_nil
    rwa [List.append_nil] at row
  | item :: next :: rest =>
    .cons isGap_nil (spells_compactChars item) (row_compactItems (next :: rest))

theorem row_compactMembers : ∀ members, Row (Member Spells) (namedValues members) (compactMembers members)
  | [] => .empty isGap_nil
  | [last] => by
    have row := Row.last isGap_nil (member_compactMember last) isGap_nil
    rwa [List.append_nil] at row
  | member :: next :: rest =>
    .cons isGap_nil (member_compactMember member) (row_compactMembers (next :: rest))

theorem member_compactMember : ∀ member, Member Spells (namedValue member) (compactMember member)
  | (name, json) => .named (spellsString_quoted name) isGap_nil isGap_nil (spells_compactChars json)

end

mutual

theorem spells_prettyChars (level : Nat) : ∀ json, Spells (value json) (prettyChars level json)
  | .null => .null
  | .number n => spells_digits n
  | .string text => .string (spellsString_quoted text)
  | .array [] => .array (.empty isGap_nil)
  | .array (item :: rest) =>
    .array (row_prettyItems (level + 1) (isGap_lineBreak level) (item :: rest) nofun)
  | .object [] => .object (.empty isGap_nil)
  | .object (member :: rest) =>
    .object (row_prettyMembers (level + 1) (isGap_lineBreak level) (member :: rest) nofun)

theorem row_prettyItems (level : Nat) {gap : List Char} (isGap : IsGap gap) :
    ∀ items ≠ [], Row Spells (values items) (prettyItems level items ++ gap)
  | [], filled => absurd rfl filled
  | [last], _ => by
    have row := Row.last (isGap_lineBreak level) (spells_prettyChars level last) isGap
    rwa [← List.append_assoc] at row
  | item :: next :: rest, _ => by
    have row := Row.cons (isGap_lineBreak level) (spells_prettyChars level item)
      (row_prettyItems level isGap (next :: rest) nofun)
    rw [prettyItems, List.append_assoc, List.append_assoc, List.cons_append]
    exact row

theorem row_prettyMembers (level : Nat) {gap : List Char} (isGap : IsGap gap) :
    ∀ members ≠ [], Row (Member Spells) (namedValues members) (prettyMembers level members ++ gap)
  | [], filled => absurd rfl filled
  | [last], _ => by
    have row := Row.last (isGap_lineBreak level) (member_prettyMember level last) isGap
    rwa [← List.append_assoc] at row
  | member :: next :: rest, _ => by
    have row := Row.cons (isGap_lineBreak level) (member_prettyMember level member)
      (row_prettyMembers level isGap (next :: rest) nofun)
    rw [prettyMembers, List.append_assoc, List.append_assoc, List.cons_append]
    exact row

theorem member_prettyMember (level : Nat) :
    ∀ member, Member Spells (namedValue member) (prettyMember level member)
  | (name, json) =>
    .named (spellsString_quoted name) isGap_nil isGap_space (spells_prettyChars level json)

end

theorem denotes_of_spells {value : Value} {cs : List Char} (spelled : Spells value cs) :
    Denotes (String.ofList cs) value := by
  refine ⟨[], cs, [], isGap_nil, spelled, isGap_nil, ?_⟩
  rw [String.toList_ofList, List.append_nil, List.nil_append]

/-- The compact text of a value denotes it and nothing else. -/
theorem denotes_compact_iff {json : Json} {other : Value} :
    Denotes json.compact other ↔ other = json.value := by
  have denotes := denotes_of_spells (spells_compactChars json)
  exact ⟨fun denotes' => denotes'.unique denotes, fun same => same ▸ denotes⟩

/-- The indented text of a value denotes it and nothing else. -/
theorem denotes_pretty_iff {json : Json} {other : Value} :
    Denotes json.pretty other ↔ other = json.value := by
  have denotes := denotes_of_spells (spells_prettyChars 0 json)
  exact ⟨fun denotes' => denotes'.unique denotes, fun same => same ▸ denotes⟩

end RelaxDoc.Json
