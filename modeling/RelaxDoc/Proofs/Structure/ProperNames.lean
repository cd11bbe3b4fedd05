import RelaxDoc.Name
import RelaxDoc.Xml.Letter
import Mathlib.Data.List.TakeWhile

/-! Which names the check takes for proper ones. They are the names of XML without a colon that are
written in basic characters only, and two of them with a colon between them. -/
namespace RelaxDoc.Name

variable {name : String} {cs : List Char} {c : Char}

/-- A name of XML without a colon: a character that names begin with, and characters of names. -/
def IsNCName (name : String) : Prop :=
  ∃ first rest, name.toList = first :: rest ∧ Xml.isNameStart first = true ∧
    (∀ c ∈ rest, Xml.isNameChar c = true) ∧ ':' ∉ first :: rest

/-- A character below the combining ones, or one of the first in the Greek block. The check knows no
other characters of names, while XML has many more. -/
def IsBasic (c : Char) : Prop := c.toNat < 0x300 ∨ (0x370 ≤ c.toNat ∧ c.toNat ≤ 0x37D)

/-- A name of XML without a colon that is written in basic characters. -/
def IsProper (name : String) : Prop := IsNCName name ∧ ∀ c ∈ name.toList, IsBasic c

/-- A name, or two names with a colon between them. -/
def IsQName (simple : String → Prop) (name : String) : Prop :=
  simple name ∨ ∃ qualifier localName, name = qualifier ++ ":" ++ localName ∧
    simple qualifier ∧ simple localName

section Characters

theorem le_iff_toNat_le {c d : Char} : c ≤ d ↔ c.toNat ≤ d.toNat := Iff.rfl

theorem isStart_iff : isStart c = true ↔ Xml.isNameStart c = true ∧ c ≠ ':' ∧ IsBasic c := by
  simp only [isStart, Xml.isNameStart, Xml.nameStartRanges, Text.inRanges, IsBasic, List.any_cons,
    List.any_nil, Bool.or_eq_true, Bool.and_eq_true, beq_iff_eq, decide_eq_true_eq, ne_eq,
    le_iff_toNat_le, ← Char.toNat_inj, Char.reduceToNat, Bool.false_eq_true, or_false]
  omega

theorem isRest_iff : isRest c = true ↔ Xml.isNameChar c = true ∧ c ≠ ':' ∧ IsBasic c := by
  have other : (c = '-' ∨ c = '.' ∨ ('0' ≤ c ∧ c ≤ '9') ∨ c.toNat = 0xB7) ↔
      Text.inRanges Xml.nameRestRanges c = true ∧ c ≠ ':' ∧ IsBasic c := by
    simp only [Xml.nameRestRanges, Text.inRanges, IsBasic, List.any_cons, List.any_nil,
      Bool.or_eq_true, Bool.and_eq_true, decide_eq_true_eq, ne_eq, le_iff_toNat_le,
      ← Char.toNat_inj, Char.reduceToNat, Bool.false_eq_true, or_false]
    omega
  have split : isRest c = true ↔
      isStart c = true ∨ c = '-' ∨ c = '.' ∨ ('0' ≤ c ∧ c ≤ '9') ∨ c.toNat = 0xB7 := by
    simp [isRest, or_assoc]
  rw [split, other, isStart_iff, Xml.isNameChar, Bool.or_eq_true, ← or_and_right]

end Characters

theorem isSimple_iff : isSimple name = true ↔ IsProper name := by
  unfold isSimple IsProper IsNCName
  cases name.toList with
  | nil => simp [isSimpleChars]
  | cons first rest =>
    simp only [isSimpleChars, Bool.and_eq_true, List.all_eq_true, isStart_iff, isRest_iff]
    constructor
    · rintro ⟨⟨start, free, basic⟩, all⟩
      refine ⟨⟨first, rest, rfl, start, fun c member => (all c member).1, ?_⟩, ?_⟩
      · exact List.not_mem_cons_of_ne_of_not_mem free.symm fun member => (all _ member).2.1 rfl
      · exact List.forall_mem_cons.2 ⟨basic, fun c member => (all c member).2.2⟩
    · rintro ⟨⟨_, _, ⟨⟩, start, all, free⟩, basic⟩
      obtain ⟨here, later⟩ := List.forall_mem_cons.1 basic
      obtain ⟨differs, absent⟩ := List.ne_and_not_mem_of_not_mem_cons free
      exact ⟨⟨start, Ne.symm differs, here⟩, fun c member =>
        ⟨all c member, fun same => absent (same ▸ member), later c member⟩⟩

theorem IsProper.colon_not_mem (proper : IsProper name) : ':' ∉ name.toList := by
  obtain ⟨⟨first, rest, split, -, -, free⟩, -⟩ := proper
  rwa [split]

section Colons

theorem splitChars_append {front back : List Char} (free : ':' ∉ front) :
    splitChars (front ++ ':' :: back) = (some front, back) := by
  have other (c : Char) (member : c ∈ front) : (c != ':') = true :=
    bne_iff_ne.2 fun same => free (same ▸ member)
  rw [splitChars, List.dropWhile_append_of_pos other, List.takeWhile_append_of_pos other]
  simp

theorem splitChars_of_not_mem (free : ':' ∉ cs) : splitChars cs = (none, cs) := by
  have other (c : Char) (member : c ∈ cs) : (c != ':') = true :=
    bne_iff_ne.2 fun same => free (same ▸ member)
  rw [splitChars, List.dropWhile_eq_nil_iff.2 other]

end Colons

theorem isQualified_iff : isQualified name = true ↔ IsQName IsProper name := by
  unfold isQualified IsQName
  by_cases colon : ':' ∈ name.toList
  · obtain ⟨front, back, split, free⟩ := List.eq_append_cons_of_mem colon
    rw [or_iff_right fun proper : IsProper name => proper.colon_not_mem colon, split,
      splitChars_append free]
    simp only [Bool.and_eq_true, ← isSimple_iff]
    constructor
    · rintro ⟨qualifier, rest⟩
      refine ⟨.ofList front, .ofList back, String.toList_inj.1 (by simp [split]), ?_, ?_⟩
      · rwa [isSimple, String.toList_ofList]
      · rwa [isSimple, String.toList_ofList]
    · rintro ⟨qualifier, localName, rfl, simple, rest⟩
      have again : splitChars (qualifier.toList ++ ':' :: localName.toList) = _ :=
        splitChars_append (isSimple_iff.1 simple).colon_not_mem
      have parts : front ++ ':' :: back = qualifier.toList ++ ':' :: localName.toList := by
        rw [← split]
        simp
      rw [← parts, splitChars_append free] at again
      cases again
      exact ⟨simple, rest⟩
  · rw [splitChars_of_not_mem colon]
    refine isSimple_iff.trans ⟨.inl, ?_⟩
    rintro (proper | ⟨qualifier, localName, rfl, -⟩)
    · exact proper
    · simp at colon

end RelaxDoc.Name
