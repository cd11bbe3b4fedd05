import RelaxDoc.Text.Lines

/-! Texts that are put together from parts, and how the parts are found again: stretches between
marks, numbers in digits, and items that are written one by one. -/
namespace RelaxDoc.Text

section Marks

variable {mark : Char}

theorem not_mem_split {cs part : List Char} (member : part ∈ split mark cs) : mark ∉ part := by
  induction cs generalizing part with
  | nil =>
    rw [split] at member
    rw [List.mem_singleton.1 member]
    exact List.not_mem_nil
  | cons c rest ih =>
    rw [split] at member
    split at member
    · rcases List.mem_cons.1 member with rfl | later
      · exact List.not_mem_nil
      · exact ih later
    · rename_i other
      split at member
      · rw [List.mem_singleton.1 member]
        exact fun same => other (List.mem_singleton.1 same).symm
      · rename_i first others parts
        rw [parts] at ih
        rcases List.mem_cons.1 member with rfl | later
        · intro among
          rcases List.mem_cons.1 among with same | inside
          · exact other same.symm
          · exact ih (List.mem_cons_self ..) inside
        · exact ih (List.mem_cons_of_mem _ later)

theorem mem_of_mem_split {c : Char} {cs line : List Char} (inSplit : line ∈ split mark cs)
    (mem : c ∈ line) : c ∈ cs := by
  induction cs generalizing line with
  | nil =>
    rw [split, List.mem_singleton] at inSplit
    exact absurd mem (by simp [inSplit])
  | cons d rest ih =>
    rw [split] at inSplit
    split at inSplit
    · rcases List.mem_cons.1 inSplit with rfl | later
      · cases mem
      · exact List.mem_cons_of_mem _ (ih later mem)
    · split at inSplit
      · rename_i none
        exact absurd none (split_ne_nil mark rest)
      · rename_i first others eq
        rw [eq] at ih
        rcases List.mem_cons.1 inSplit with rfl | later
        · rcases List.mem_cons.1 mem with rfl | inFirst
          · exact List.mem_cons_self
          · exact List.mem_cons_of_mem _ (ih List.mem_cons_self inFirst)
        · exact List.mem_cons_of_mem _ (ih (List.mem_cons_of_mem _ later) mem)

theorem split_append_mark (left right : List Char) :
    split mark (left ++ mark :: right) = split mark left ++ split mark right := by
  induction left with
  | nil =>
    change split mark (mark :: right) = [] :: split mark right
    rw [split, if_pos rfl]
  | cons c rest ih =>
    rw [List.cons_append, split, split, ih]
    split
    · rfl
    · cases parts : split mark rest with
      | nil => exact absurd parts (split_ne_nil mark rest)
      | cons first others => rfl

theorem split_of_clean {part : List Char} (clean : mark ∉ part) : split mark part = [part] := by
  induction part with
  | nil => rfl
  | cons c others ih =>
    obtain ⟨other, clean⟩ := not_or.1 (mt List.mem_cons.2 clean)
    rw [split, if_neg (Ne.symm other), ih clean]

theorem split_append {part rest : List Char} (clean : mark ∉ part) :
    split mark (part ++ mark :: rest) = part :: split mark rest := by
  rw [split_append_mark, split_of_clean clean]
  rfl

/-- Parts without the mark are found again after they are joined by it. -/
theorem split_joinWith {parts : List (List Char)} (filled : parts ≠ [])
    (clean : ∀ part ∈ parts, mark ∉ part) : split mark (joinWith [mark] parts) = parts := by
  induction parts with
  | nil => exact absurd rfl filled
  | cons part rest ih =>
    have here := clean part (List.mem_cons_self ..)
    cases rest with
    | nil => exact split_of_clean here
    | cons next later =>
      have tail := ih nofun fun part member => clean part (List.mem_cons_of_mem _ member)
      rw [joinWith, List.append_assoc, List.singleton_append, split_append here, tail]

/-- A text begins with an empty part if it is empty or begins with the mark. -/
theorem head?_split_eq_nil_iff {cs : List Char} :
    (split mark cs).head? = some [] ↔ cs = [] ∨ cs.head? = some mark := by
  cases cs with
  | nil => simp [split]
  | cons c rest =>
    by_cases same : c = mark
    · simp [split, same]
    · cases parts : split mark rest <;> simp [split, same, parts]

theorem mem_joinWith {c : Char} {joint : List Char} {lines : List (List Char)}
    (mem : c ∈ joinWith joint lines) : c ∈ joint ∨ ∃ line ∈ lines, c ∈ line := by
  fun_induction joinWith joint lines with
  | case1 => cases mem
  | case2 last => exact .inr ⟨last, by simp, mem⟩
  | case3 first second rest ih =>
    rcases List.mem_append.1 mem with here | later
    · rcases List.mem_append.1 here with inFirst | inJoint
      · exact .inr ⟨first, List.mem_cons_self, inFirst⟩
      · exact .inl inJoint
    · rcases ih later with inJoint | ⟨line, inLines, inLine⟩
      · exact .inl inJoint
      · exact .inr ⟨line, List.mem_cons_of_mem _ inLines, inLine⟩

theorem joinWith_eq_nil_iff {joint : List Char} {parts : List (List Char)}
    (filled : ∀ part ∈ parts, part ≠ []) :
    joinWith joint parts = [] ↔ parts = [] := by
  cases parts with
  | nil => exact iff_of_true rfl rfl
  | cons first rest =>
    have first := filled first (List.mem_cons_self ..)
    cases rest <;> simp [joinWith, first]

theorem joinWith_append {joint : List Char} {parts others : List (List Char)} (some : parts ≠ [])
    (more : others ≠ []) :
    joinWith joint (parts ++ others) = joinWith joint parts ++ joint ++ joinWith joint others := by
  induction parts with
  | nil => exact absurd rfl some
  | cons first rest ih =>
    cases rest with
    | nil =>
      obtain ⟨next, later, rfl⟩ := List.exists_cons_of_ne_nil more
      rfl
    | cons second rest =>
      have later := ih nofun
      rw [List.cons_append] at later
      simp only [List.cons_append, joinWith, later, List.append_assoc]

/-- Joining the stretches between the marks undoes the splitting. -/
theorem joinWith_split (mark : Char) (cs : List Char) : joinWith [mark] (split mark cs) = cs := by
  induction cs with
  | nil => rfl
  | cons c rest ih =>
    rw [split]
    split
    · rename_i same
      obtain ⟨first, others, parts⟩ := List.exists_cons_of_ne_nil (split_ne_nil mark rest)
      rw [parts] at ih ⊢
      rw [joinWith, ih, same]
      rfl
    · cases parts : split mark rest with
      | nil => exact absurd parts (split_ne_nil mark rest)
      | cons first others =>
        rw [parts] at ih
        cases others <;> simp_all [joinWith]

theorem joinWith_eq_intercalate (joint : List Char) (parts : List (List Char)) :
    joinWith joint parts = joint.intercalate parts := by
  fun_induction joinWith joint parts with
  | case1 => rfl
  | case2 last => rw [List.intercalate_singleton]
  | case3 first second rest ih => rw [List.intercalate_cons_cons, ih]

end Marks

section Numbers

theorem toList_toString (n : Nat) : (toString n).toList = Nat.toDigits 10 n := by
  rw [Nat.toString_eq_ofList_toDigits, String.toList_ofList]

theorem isDigit_of_mem_toString {n : Nat} {c : Char} (member : c ∈ (toString n).toList) :
    c.isDigit = true :=
  Nat.isDigit_of_mem_toDigits (by decide) (by decide) (toList_toString n ▸ member)

theorem not_mem_toString {c : Char} (other : c.isDigit = false) (n : Nat) :
    c ∉ (toString n).toList := by
  intro member
  rw [isDigit_of_mem_toString member] at other
  cases other

theorem toString_injective {n other : Nat} (same : toString n = toString other) : n = other := by
  have digits := congrArg String.toList same
  rw [toList_toString, toList_toString] at digits
  rw [← Nat.ofDigitChars_ten_toDigits (n := n), digits, Nat.ofDigitChars_ten_toDigits]

theorem repr_inj {n other : Nat} : n.repr = other.repr ↔ n = other :=
  ⟨toString_injective, congrArg Nat.repr⟩

end Numbers

/-- Items are read again if each of them is. -/
theorem mapM_map_eq_some {α β : Type} {write : α → β} {read : β → Option α} {items : List α}
    (reads : ∀ item ∈ items, read (write item) = some item) :
    (items.map write).mapM read = some items := by
  induction items with
  | nil => rfl
  | cons item rest ih =>
    have later := ih fun item member => reads item (List.mem_cons_of_mem _ member)
    rw [List.map_cons, List.mapM_cons, reads item (List.mem_cons_self ..), later]
    rfl

end RelaxDoc.Text
