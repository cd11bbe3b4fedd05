import RelaxDoc.Proofs.Grammar.Admission
import RelaxDoc.Proofs.Grammar.Labels
import RelaxDoc.Proofs.Renumbering
import Mathlib.Algebra.Group.End

/-! Documents that differ in the order of what stands in their root. They are read within the same
limits, and their kept elements are the same at moved addresses. -/
namespace RelaxDoc

open Xml (Address)

/-- A document with the content of another in its root, a grammar, in another order: `place` says
where each node has moved. -/
structure Xml.Document.Rearranges (place : Equiv.Perm Nat) (document other : Xml.Document) :
    Prop where
  grammar : Kind.ofName? document.root.name = some .grammar
  root : other.root = document.root
  child : ∀ step, other.children[place step]? = document.children[step]?

/-- An address when the nodes in the root have moved. -/
def moved (place : Equiv.Perm Nat) : Address → Address
  | [] => []
  | step :: rest => place step :: rest

section Moved

variable {place : Equiv.Perm Nat} {address around : Address}

theorem moved_injective (place : Equiv.Perm Nat) : Function.Injective (moved place) := by
  intro one other same
  cases one with
  | nil =>
    cases other with
    | nil => rfl
    | cons => cases same
  | cons first rest =>
    cases other with
    | nil => cases same
    | cons second further =>
      obtain ⟨steps, rfl⟩ := List.cons.inj same
      rw [place.injective steps]

theorem moved_surjective (place : Equiv.Perm Nat) : Function.Surjective (moved place) := by
  intro address
  cases address with
  | nil => exact ⟨[], rfl⟩
  | cons step rest => exact ⟨place.symm step :: rest, by rw [moved, place.apply_symm_apply]⟩

theorem length_moved (place : Equiv.Perm Nat) (address : Address) :
    (moved place address).length = address.length := by
  cases address <;> rfl

theorem moved_append (place : Equiv.Perm Nat) (inner : around ≠ []) (rest : Address) :
    moved place (around ++ rest) = moved place around ++ rest := by
  cases around with
  | nil => exact absurd rfl inner
  | cons first more => rfl

theorem exists_moved_concat (place : Equiv.Perm Nat) (around : Address) (step : Nat) :
    ∃ last, moved place (around ++ [step]) = moved place around ++ [last] := by
  cases around with
  | nil => exact ⟨place step, rfl⟩
  | cons first rest => exact ⟨step, rfl⟩

/-- Addresses in one node are in the order of their last steps. -/
theorem concat_lt_concat_iff {step next : Nat} :
    around ++ [step] < around ++ [next] ↔ step < next := by
  induction around with
  | nil => simp [List.cons_lt_cons_iff]
  | cons first rest ih => simp [ih]

end Moved

namespace Xml.Document.Rearranges

variable {place : Equiv.Perm Nat} {document other : Xml.Document} {limits : Limits} {g : Grammar}
  (rearranges : document.Rearranges place other)

include rearranges

theorem retained_moved (address : Address) :
    Retained other.toNode (moved place address) ↔ Retained document.toNode address := by
  have kind : Kind.ofNode? other.toNode = Kind.ofNode? document.toNode := by
    rw [toNode, rearranges.root]
    rfl
  cases address with
  | nil => rw [moved, Retained.nil_iff, Retained.nil_iff, kind]
  | cons step rest =>
    rw [moved, Retained.cons_iff, Retained.cons_iff, Node.LookedInto, Node.LookedInto, kind]
    change _ ∧ (∃ child, other.children[place step]? = some child ∧ _) ↔ _
    rw [rearranges.child]
    rfl

theorem keptAddresses_perm : (keptAddresses other.toNode).Perm
    ((keptAddresses document.toNode).map (moved place)) := by
  have nodup (root : Node) : (keptAddresses root).Nodup := (keptAddresses_sorted root).nodup
  rw [List.perm_ext_iff_of_nodup (nodup _) ((nodup _).map (moved_injective place))]
  intro address
  obtain ⟨address, rfl⟩ := moved_surjective place address
  rw [List.mem_map_of_injective (moved_injective place), mem_keptAddresses, mem_keptAddresses,
    rearranges.retained_moved]

/-- An order of the root is read within limits if another one is. -/
theorem exists_read (read : Grammar.ofDocument limits document = .ok g) :
    ∃ h, Grammar.ofDocument limits other = .ok h := by
  obtain ⟨root, admitted, _⟩ := Grammar.ofDocument_eq_ok_iff.1 read
  obtain ⟨shallow, room⟩ := Limits.checkVisits_document_iff.1 admitted
  have perm := rearranges.keptAddresses_perm
  have within : limits.checkVisits 0 (Visit.ofNode 1 other.toNode) = .ok () := by
    refine Limits.checkVisits_document_iff.2 ⟨fun address member => ?_, ?_⟩
    · obtain ⟨before, among, rfl⟩ := List.mem_map.1 (perm.mem_iff.1 member)
      rw [length_moved]
      exact shallow before among
    · rw [perm.length_eq, List.length_map]
      exact room
  have sameRoot : Grammar.checkRoot other = .ok () := by
    rw [Grammar.checkRoot, rearranges.root]
    exact root
  have known : Kind.ofName? other.root.name = some .grammar := rearranges.root ▸ rearranges.grammar
  obtain ⟨particle, kept⟩ := Grammar.exists_particle known
  exact ⟨_, Grammar.ofDocument_eq_ok_iff.2 ⟨sameRoot, within, particle, kept, rfl⟩⟩

/-- What is said at an address is said at the moved address, up to what comes behind. -/
theorem unremarked_labelAt?_moved (address : Address) :
    (other.toNode.labelAt? [] [] (moved place address)).map Label.unremarked =
      (document.toNode.labelAt? [] [] address).map Label.unremarked := by
  cases address with
  | nil =>
    rw [moved, toNode, toNode, Node.labelAt?, Node.labelAt?, rearranges.root, rearranges.grammar]
    rfl
  | cons step rest =>
    rw [moved, toNode, toNode, Node.labelAt?, Node.labelAt?, rearranges.root, rearranges.child]
    cases document.children[step]? with
    | none => rfl
    | some child => exact Node.unremarked_labelAt? rest

/-- In an element of the root what comes behind is the same too. -/
theorem labelAt?_moved {around : Address} (inner : around ≠ []) (step : Nat) :
    other.toNode.labelAt? [] [] (moved place (around ++ [step])) =
      document.toNode.labelAt? [] [] (around ++ [step]) := by
  cases around with
  | nil => exact absurd rfl inner
  | cons first rest =>
    rw [List.cons_append, moved, toNode, toNode, Node.labelAt?, Node.labelAt?, rearranges.root,
      rearranges.child]
    cases document.children[first]? with
    | none => rfl
    | some child =>
      cases rest with
      | nil => exact Node.labelAt?_cons step []
      | cons next more => exact Node.labelAt?_cons next (more ++ [step])

end Xml.Document.Rearranges

end RelaxDoc
