import RelaxDoc.Proofs.Record.Numbering
import RelaxDoc.Proofs.Search.Nesting
import Mathlib.Data.List.Nodup

/-! What is listed more than once. A definition that a search meets and that a reference leads to as
well is gone through twice; so is one that the start stands in. -/
namespace RelaxDoc.Grammar

variable {g : Grammar}

/-- A record refers to a child twice exactly if the search for children finds it twice. -/
theorem nodup_children_iff (g : Grammar) (node : Nat) :
    ((g.elementRecord g.elementIndex node).children.map ChildRef.id).Nodup ↔
      (g.descend node .element).Nodup := by
  have nodes : ((g.childRefs g.elementIndex node).map ChildRef.id).map g.elementIndex.nodeOf? =
      (g.descend node .element).map some := by
    rw [List.map_map]
    exact g.childRefs_nodes node
  have numbered : ∀ id ∈ (g.childRefs g.elementIndex node).map ChildRef.id,
      ∃ inner, g.elementIndex.nodeOf? id = some inner := by
    intro id member
    obtain ⟨child, listed, rfl⟩ := List.mem_map.1 member
    obtain ⟨inner, found, _⟩ := childRefs_name listed
    exact ⟨inner, found⟩
  have unwrapped := List.nodup_map_iff (l := g.descend node .element) (Option.some_injective Nat)
  rw [← unwrapped, ← nodes]
  constructor
  · intro distinct
    refine distinct.map_on fun id member other _ same => ?_
    obtain ⟨inner, found⟩ := numbered id member
    exact ElementIndex.nodeOf?_injective found (same ▸ found)
  · exact List.Nodup.of_map _

/-- A search finds each node once exactly if no node of the kind stands in the content of two of
its sources. That holds for elements and attributes where definitions stand apart, and it decides
whether a record refers to each child once. -/
theorem nodup_descend_iff (loaded : g.Loaded) (start : Nat) (target : Kind) :
    ((g.descend start target).Nodup ↔ ∀ id, g.kind id = target → g.HeldOnce target start id) ∧
    (g.DefinitionsApart → g.kind start = .element ∨ g.kind start = .attr →
      (g.descend start target).Nodup) ∧
    (((g.elementRecord g.elementIndex start).children.map ChildRef.id).Nodup ↔
      ∀ id, g.kind id = .element → g.HeldOnce .element start id) := by
  refine ⟨nodup_descend_iff_heldOnce loaded, fun apart boundary => ?_, ?_⟩
  · exact (nodup_descend_iff_heldOnce loaded).2 fun id _ => apart.heldOnce loaded boundary id
  · rw [nodup_children_iff, nodup_descend_iff_heldOnce loaded]

theorem recursive_nodup : recursive.Loaded ∧ recursive.DefinitionsApart ∧
    recursive.kind 4 = .element ∧ (recursive.descend 4 .element).Nodup := by
  have apart : recursive.DefinitionsApart := by decide +kernel
  have pattern : recursive.kind 4 = .element := by decide +kernel
  have once := (nodup_descend_iff recursive_loaded 4 .element).2.1 apart (.inl pattern)
  exact ⟨recursive_loaded, apart, pattern, once⟩

/-- An element with a grammar inside that refers to its own definition. -/
def enclosedDocument : Xml.Document := .ofContent
  [.pattern .start none [.pattern .element "e" [.pattern .grammar none
    [.pattern .start none [.pattern .ref "x" []],
     .pattern .define "x" [.pattern .element "a" [.pattern .empty none []]]]]]]

/-- The grammar of `enclosedDocument`; its outer element is at 2, the inner one at 7. -/
def enclosed : Grammar := .ofKept enclosedDocument rfl

theorem enclosed_loaded : enclosed.Loaded := loaded_ofKept _ rfl rfl

theorem enclosed_referred : enclosed.HasSource .element 2 (.definition 6) := by
  refine ⟨by decide +kernel, 5, ⟨some 3, "x"⟩, ?_, by decide +kernel⟩
  exact .of_chain 3 [4, 5] (by decide +kernel) (by decide +kernel)

theorem enclosed_held : enclosed.Holds .element 2 .start 7 :=
  Reaches.of_chain 3 [6, 7] (by decide +kernel) (by decide +kernel)

/-- A search may find a node twice, and a record refer to a child twice. -/
theorem exists_descend_repeated : ¬ ∀ g : Grammar, g.Loaded → ∀ start target,
    (g.descend start target).Nodup := by
  intro always
  have once := (nodup_descend_iff_heldOnce enclosed_loaded).1 (always _ enclosed_loaded 2 .element)
  have child : 7 ∈ enclosed.children 6 := by decide +kernel
  have same := once 7 (by decide +kernel) .start (.definition 6) trivial enclosed_referred
    enclosed_held (.top child)
  cases same

end RelaxDoc.Grammar
