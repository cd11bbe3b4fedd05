import Mathlib.Data.List.Nodup
import Mathlib.Data.List.Perm.Basic

/-! Positions in a list and in a rearrangement of it. What is at a position of the one is, moved, at
a position of the other; that gives new numbers to what a list numbers. -/
namespace RelaxDoc

variable {α : Type} [DecidableEq α] {numbered rearranged : List α} {move : α → α}

/-- The position that the moved entry at a position has in another list. Positions at which there is
no entry stay. -/
def renumbering (numbered rearranged : List α) (move : α → α) (position : Nat) : Nat :=
  match numbered[position]? with
  | some entry => rearranged.idxOf (move entry)
  | none => position

theorem renumbering_of_none {position : Nat} (none : numbered[position]? = none) :
    renumbering numbered rearranged move position = position := by
  unfold renumbering
  rw [none]

section Perm

variable (perm : rearranged.Perm (numbered.map move))

include perm

omit [DecidableEq α] in
/-- The lists are of one length. -/
theorem getElem?_eq_none_of_perm {position : Nat} :
    rearranged[position]? = none ↔ numbered[position]? = none := by
  rw [List.getElem?_eq_none_iff, List.getElem?_eq_none_iff, perm.length_eq, List.length_map]

theorem getElem?_renumbering (position : Nat) :
    rearranged[renumbering numbered rearranged move position]? =
      numbered[position]?.map move := by
  cases found : numbered[position]? with
  | none =>
    rw [renumbering_of_none found, Option.map_none]
    exact (getElem?_eq_none_of_perm perm).2 found
  | some entry =>
    have member : move entry ∈ rearranged :=
      perm.mem_iff.2 (List.mem_map_of_mem (List.mem_of_getElem? found))
    unfold renumbering
    rw [found]
    exact List.getElem?_idxOf member

theorem renumbering_bijective (nodup : numbered.Nodup) (distinct : Function.Injective move) :
    Function.Bijective (renumbering numbered rearranged move) := by
  constructor
  · intro one other same
    have entries := getElem?_renumbering perm one
    rw [same, getElem?_renumbering perm] at entries
    have entries := Option.map_injective distinct entries
    cases found : numbered[one]? with
    | none =>
      rw [renumbering_of_none found, renumbering_of_none (entries.trans found)] at same
      exact same
    | some entry =>
      obtain ⟨inside, _⟩ := List.getElem?_eq_some_iff.1 found
      exact (List.getElem?_inj inside nodup).1 entries.symm
  · intro position
    cases found : rearranged[position]? with
    | none => exact ⟨position, renumbering_of_none ((getElem?_eq_none_of_perm perm).1 found)⟩
    | some entry =>
      obtain ⟨before, member, rfl⟩ := List.mem_map.1 (perm.mem_iff.1 (List.mem_of_getElem? found))
      obtain ⟨origin, there⟩ := List.getElem?_of_mem member
      obtain ⟨inside, _⟩ := List.getElem?_eq_some_iff.1 found
      have again := getElem?_renumbering perm origin
      rw [there, Option.map_some] at again
      have distinct : rearranged.Nodup := perm.nodup_iff.2 (nodup.map distinct)
      exact ⟨origin, ((List.getElem?_inj inside distinct).1 (found.trans again.symm)).symm⟩

end Perm

end RelaxDoc
