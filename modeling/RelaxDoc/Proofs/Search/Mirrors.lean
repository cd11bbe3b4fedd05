import RelaxDoc.Proofs.Grammar.Kinship
import RelaxDoc.Proofs.Search.Climbing
import RelaxDoc.Proofs.Search.Unfolding
import Mathlib.Logic.Function.Basic

/-! Grammars that mirror each other: one has the nodes of the other under other numbers, and its
definitions may go by other keys. Searches find the same in both. -/
namespace RelaxDoc.Grammar

variable {g h : Grammar} {image : Nat → Nat} {rekey : DefineKey → DefineKey} {id start : Nat}
  {key : DefineKey}

/-- A node other than a grammar at the root. No search comes to that one from below, so its children
may be in any order. -/
def IsInner (g : Grammar) (id : Nat) : Prop := id = Arena.root → g.kind id ≠ .grammar

theorem isInner_of_kind (other : g.kind id ≠ .grammar) : g.IsInner id := fun _ => other

theorem isInner_of_child {outer : Nat} (member : id ∈ g.children outer) : g.IsInner id := by
  intro top
  have less := g.lt_of_mem_children member
  rw [top] at less
  exact absurd less (Nat.not_lt_zero _)

theorem isInner_of_define (member : id ∈ g.definesOf key) : g.IsInner id :=
  isInner_of_kind (by rw [(g.mem_definesOf.1 member).1]; decide)

/-- A key with another number for its scope. -/
def rescope (image : Nat → Nat) (key : DefineKey) : DefineKey := ⟨key.scope.map image, key.name⟩

theorem rescope_injective (distinct : Function.Injective image) :
    Function.Injective (rescope image) := by
  rintro ⟨scope, name⟩ ⟨further, again⟩ same
  obtain ⟨scopes, names⟩ := DefineKey.mk.inj same
  exact congrArg₂ DefineKey.mk (Option.map_injective distinct scopes) names

/-- The nodes of `h` are those of `g` under other numbers, of the same kinds and parents. -/
structure Aligned (g h : Grammar) (image : Nat → Nat) : Prop where
  bijective : Function.Bijective image
  kind : ∀ id, h.kind (image id) = g.kind id
  parent : ∀ id, h.parent? (image id) = (g.parent? id).map image

namespace Aligned

variable (aligned : Aligned g h image)

include aligned

theorem ancestors (id : Nat) : h.ancestors (image id) = (g.ancestors id).map image := by
  -- A parent comes before its children, so its ancestors are known already.
  induction id using Nat.strongRecOn with
  | ind id ih =>
    have above := aligned.parent id
    cases found : g.parent? id with
    | none =>
      rw [found] at above
      rw [ancestors_of_orphan above, ancestors_of_orphan found, List.map_nil]
    | some outer =>
      rw [found] at above
      rw [ancestors_of_parent above, ancestors_of_parent found, List.map_cons,
        ih outer (g.parent?_lt found)]

theorem enclosing? (id : Nat) (kind : Kind) :
    h.enclosing? (image id) kind = (g.enclosing? id kind).map image := by
  unfold Arena.enclosing?
  rw [aligned.ancestors, List.find?_map]
  congr 2
  funext ancestor
  simp [aligned.kind]

/-- A key has its scope under the other number, if the name is the same. -/
theorem defineKey? (name : (h.node (image id)).name? = (g.node id).name?) :
    h.defineKey? (image id) = (g.defineKey? id).map (rescope image) := by
  unfold Arena.defineKey?
  rw [name, aligned.kind, aligned.enclosing?]
  cases (g.node id).name? with
  | none => rfl
  | some name =>
    cases g.kind id with
    | define | ref => rfl
    | parentRef =>
      cases g.enclosing? id .grammar with
      | none => rfl
      | some inner => simp [rescope, aligned.enclosing?]
    | _ => rfl

end Aligned

/-- The nodes of `h` are those of `g` renumbered by `image`, its keys are replaced by `rekey`. -/
structure Mirrors (g h : Grammar) (image : Nat → Nat) (rekey : DefineKey → DefineKey) : Prop
    extends Aligned g h image where
  distinct : Function.Injective rekey
  children : ∀ id, g.IsInner id → h.children (image id) = (g.children id).map image
  key : ∀ id, h.defineKey? (image id) = (g.defineKey? id).map rekey
  defines : ∀ key, h.definesOf (rekey key) = (g.definesOf key).map image
  /-- The patterns without a `name` attribute are the same. -/
  unnamed : ∀ id, g.kind id = .element ∨ g.kind id = .attr →
    ((h.node (image id)).name? = none ↔ (g.node id).name? = none)

namespace Mirrors

variable (mirrors : Mirrors g h image rekey)

include mirrors

theorem find?_children (inner : g.IsInner id) (wanted : Kind → Bool) :
    (h.children (image id)).find? (fun child => wanted (h.kind child)) =
      ((g.children id).find? fun child => wanted (g.kind child)).map image := by
  rw [mirrors.children id inner, List.find?_map]
  congr 2
  funext child
  simp [mirrors.kind]

theorem nameClass? (inner : g.IsInner id) :
    h.nameClass? (image id) = (g.nameClass? id).map image := by
  unfold Arena.nameClass?
  rw [mirrors.kind]
  by_cases pattern : g.kind id = .element ∨ g.kind id = .attr
  · simp only [mirrors.unnamed id pattern, apply_ite (Option.map image), Option.map_none]
    rw [← mirrors.find?_children inner fun kind => kind ≠ .documentation]
  · simp [pattern]

theorem contentChildren (inner : g.IsInner id) :
    h.contentChildren (image id) = (g.contentChildren id).map image := by
  unfold Arena.contentChildren
  rw [mirrors.children id inner, mirrors.nameClass? inner, List.filter_map]
  congr 2
  funext child
  cases g.nameClass? id with
  | none => simp
  | some named => simp [mirrors.bijective.injective.eq_iff]

theorem flatMap_definesOf (key : DefineKey) :
    (h.definesOf (rekey key)).flatMap h.children =
      ((g.definesOf key).flatMap g.children).map image := by
  rw [mirrors.defines, List.flatMap_map, List.map_flatMap]
  apply List.flatMap_congr
  intro define member
  exact mirrors.children define (isInner_of_define member)

/-- The recursion through nodes is the same on both sides. -/
theorem unfolds {target : Kind} {pending found : List Nat} {visited after : List DefineKey}
    (unfolds : g.Unfolds target pending visited found after)
    (inner : ∀ id ∈ pending, g.IsInner id) :
    h.Unfolds target (pending.map image) (visited.map rekey) (found.map image)
      (after.map rekey) := by
  induction unfolds with
  | done => exact .done
  | hit kind _ ih =>
    exact .hit (by rwa [mirrors.kind]) (ih (List.forall_mem_of_forall_mem_cons inner))
  | boundary other kind _ ih =>
    exact .boundary (by rwa [mirrors.kind]) (by rwa [mirrors.kind])
      (ih (List.forall_mem_of_forall_mem_cons inner))
  | unnamed other refers named _ ih =>
    exact .unnamed (by rwa [mirrors.kind]) (by rwa [mirrors.kind])
      (by rw [mirrors.key, named, Option.map_none]) (ih (List.forall_mem_of_forall_mem_cons inner))
  | again other refers named old _ ih =>
    exact .again (by rwa [mirrors.kind]) (by rwa [mirrors.kind])
      (by rw [mirrors.key, named, Option.map_some]) (List.mem_map_of_mem old)
      (ih (List.forall_mem_of_forall_mem_cons inner))
  | expand other refers named fresh _ _ ihWithin ihRest =>
    have within := ihWithin fun child member => by
      obtain ⟨define, _, member⟩ := List.mem_flatMap.1 member
      exact isInner_of_child member
    rw [← mirrors.flatMap_definesOf] at within
    rw [List.map_append]
    refine .expand (by rwa [mirrors.kind]) (by rwa [mirrors.kind])
      (by rw [mirrors.key, named, Option.map_some]) ?_ within
      (ihRest (List.forall_mem_of_forall_mem_cons inner))
    rwa [List.mem_map_of_injective mirrors.distinct]
  | enter other element attr plain _ _ ihWithin ihRest =>
    have within := ihWithin fun child member => isInner_of_child member
    rw [← mirrors.children _ (inner _ (List.mem_cons_self ..))] at within
    rw [List.map_append]
    exact .enter (by rwa [mirrors.kind]) (by rwa [mirrors.kind]) (by rwa [mirrors.kind])
      (by rwa [mirrors.kind]) within (ihRest (List.forall_mem_of_forall_mem_cons inner))

/-- A search downwards finds the same nodes in the same order. -/
theorem descend (inner : g.IsInner id) (target : Kind) :
    h.descend (image id) target = (g.descend id target).map image := by
  obtain ⟨after, unfolds⟩ :
      ∃ after, g.Unfolds target (g.contentChildren id) [] (g.descend id target) after :=
    exists_unfolds_iff.2 rfl
  have other := mirrors.unfolds unfolds fun child member =>
    isInner_of_child (List.mem_of_mem_filter member)
  rw [← mirrors.contentChildren inner] at other
  exact (exists_unfolds_iff.1 ⟨_, other⟩).symm

theorem mem_referencesTo_iff : image id ∈ h.referencesTo (rekey key) ↔ id ∈ g.referencesTo key := by
  rw [mem_referencesTo, mem_referencesTo, mirrors.kind, mirrors.key]
  simp [Option.map_eq_some_iff, mirrors.distinct.eq_iff]

theorem above_iff {inner : Nat} : h.Above (image inner) (image id) ↔ g.Above inner id := by
  unfold Above ForksTo
  rw [mirrors.parent, mirrors.kind, mirrors.key]
  apply or_congr
  · simp [Option.map_eq_some_iff, mirrors.bijective.injective.eq_iff]
  · simp [Option.map_eq_some_iff, mirrors.mem_referencesTo_iff]

theorem climbs_iff {stop : Kind} {tops : List Nat} :
    h.Climbs stop (tops.map image) (image id) ↔ g.Climbs stop tops id := by
  constructor
  · intro path
    generalize same : image id = other at path
    induction path generalizing id with
    | top member =>
      rw [← same, List.mem_map_of_injective mirrors.bijective.injective] at member
      exact .top member
    | @step inner _ _ passes above ih =>
      obtain ⟨inner, rfl⟩ := mirrors.bijective.surjective inner
      rw [mirrors.kind] at passes
      rw [← same, mirrors.above_iff] at above
      exact .step (ih rfl) passes above
  · intro path
    induction path with
    | top member => exact .top (List.mem_map_of_mem member)
    | step _ passes above ih =>
      exact .step ih (by rwa [mirrors.kind]) (mirrors.above_iff.2 above)

/-- A search upwards says the same. -/
theorem climb (id : Nat) (wrapper stop : Kind) :
    h.climb (image id) wrapper stop = g.climb id wrapper stop := by
  have parent : (h.parent? (image id)).toList = (g.parent? id).toList.map image := by
    rw [mirrors.parent]
    cases g.parent? id <;> rfl
  rw [Bool.eq_iff_iff, climb_eq_true_iff, climb_eq_true_iff, parent,
    mirrors.bijective.surjective.exists]
  simp only [mirrors.climbs_iff, mirrors.kind]

end Mirrors

end RelaxDoc.Grammar
