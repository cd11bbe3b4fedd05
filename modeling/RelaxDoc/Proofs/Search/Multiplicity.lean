import RelaxDoc.Proofs.Grammar.Kinship
import RelaxDoc.Proofs.Search.Expansion
import Mathlib.Data.Finset.Card

/-! How often a search downwards takes a node: as often as there are sources whose content
the node stands in. The sources of a search are its start and the definitions it comes to. -/
namespace RelaxDoc

theorem countP_or_of_apart {α : Type} {p q : α → Bool} {items : List α}
    (apart : ∀ item ∈ items, p item = true → q item = false) :
    (items.countP fun item => p item || q item) = items.countP p + items.countP q := by
  induction items with
  | nil => rfl
  | cons head rest ih =>
    have tail := ih fun item member => apart item (List.mem_cons_of_mem _ member)
    have here := apart head (List.mem_cons_self ..)
    rw [List.countP_cons, List.countP_cons, List.countP_cons, tail]
    cases left : p head with
    | false => simp [Nat.add_assoc]
    | true => simp [here left, Nat.add_right_comm]

/-- A list of all known items, each once, has one of a kind at most exactly if any two known items of
the kind are the same. -/
theorem countP_le_one_iff {α : Type} [DecidableEq α] {p known : α → Prop} [DecidablePred p]
    {items : List α} (distinct : items.Nodup) (mem_iff : ∀ item, item ∈ items ↔ known item) :
    (items.countP fun item => p item) ≤ 1 ↔
      ∀ one other, known one → known other → p one → p other → one = other := by
  rw [List.countP_eq_length_filter, ← List.toFinset_card_of_nodup (distinct.filter _),
    Finset.card_le_one_iff]
  simp only [List.mem_toFinset, List.mem_filter, mem_iff, decide_eq_true_eq]
  constructor
  · intro same one other member further here there
    exact same ⟨member, here⟩ ⟨further, there⟩
  · intro same one other left right
    exact same one other left.1 right.1 left.2 right.2

theorem flatMap_filter {α β : Type} (p : α → Bool) (f : α → List β) (items : List α) :
    (items.filter p).flatMap f = items.flatMap fun item => if p item then f item else [] := by
  induction items with
  | nil => rfl
  | cons head rest ih => cases here : p head <;> simp [here, ih]

/-- A list with a known number of the items of a kind, and no others, has none twice exactly if these
numbers are one at most. -/
theorem nodup_iff_of_count {α : Type} [DecidableEq α] {p : α → Prop} [DecidablePred p]
    {items : List α} {times : α → Nat}
    (count : ∀ item, items.count item = if p item then times item else 0) :
    items.Nodup ↔ ∀ item, p item → times item ≤ 1 := by
  rw [List.nodup_iff_count]
  refine forall_congr' fun item => ?_
  rw [count]
  by_cases kind : p item <;> simp [kind]

/-- Where a search takes nodes from: the content of its start, or that of a definition. -/
inductive Source where
  | start
  | definition (id : Nat)
  deriving DecidableEq, Repr

/-- The node that a source is about. -/
def Source.owner (start : Nat) : Source → Nat
  | .start => start
  | .definition id => id

/-- Sources are told apart by their owners, unless the start is a definition and a source. -/
theorem Source.eq_of_owner {start : Nat} {one other : Source} (first : one ≠ .definition start)
    (second : other ≠ .definition start) (same : one.owner start = other.owner start) :
    one = other := by
  cases one with
  | start =>
    cases other with
    | start => rfl
    | definition id => exact absurd (congrArg _ same.symm) second
  | definition id =>
    cases other with
    | start => exact absurd (congrArg _ same) first
    | definition other => exact congrArg _ same

namespace Grammar

variable {g : Grammar} {target : Kind} {start : Nat}

/-- The nodes at the top of a source. -/
def tops (g : Grammar) (start : Nat) : Source → List Nat
  | .start => g.contentChildren start
  | .definition id => g.children id

/-- The sources of a search: its start, and the definitions of references it meets and enters. -/
def HasSource (g : Grammar) (target : Kind) (start : Nat) : Source → Prop
  | .start => True
  | .definition id => g.kind id = .define ∧ ∃ reference key,
      g.Reaches (g.Enters target) (g.contentChildren start) reference ∧
      g.Enters target reference ∧ (g.kind reference).isReference = true ∧
      g.defineKey? reference = some key ∧ g.defineKey? id = some key

/-- A node stands in the content of a source: it is at the top or below opened nodes there. No
reference is followed on the way. -/
def Holds (g : Grammar) (target : Kind) (start : Nat) (source : Source) (id : Nat) : Prop :=
  g.Reaches (g.Opens target) (g.tops start source) id

theorem inside_of_opens {outer : Nat} (opens : g.Opens target outer) :
    g.inside outer = g.children outer := if_neg (by simp [opens.2])

theorem mem_children_of_mem_tops {source : Source} {id : Nat} (member : id ∈ g.tops start source) :
    id ∈ g.children (source.owner start) := by
  cases source with
  | start => exact (List.mem_filter.1 member).1
  | definition _ => exact member

theorem tops_nodup (source : Source) : (g.tops start source).Nodup := by
  cases source with
  | start => exact (g.children_nodup start).filter _
  | definition id => exact g.children_nodup id

/-- Whatever a search comes to stands in the content of one of its sources. -/
theorem exists_source {id : Nat}
    (path : g.Reaches (g.Enters target) (g.contentChildren start) id) :
    ∃ source, g.HasSource target start source ∧ g.Holds target start source id := by
  induction path with
  | top member => exact ⟨.start, trivial, .top member⟩
  | @step outer id path enters member ih =>
    cases reference : (g.kind outer).isReference with
    | false =>
      obtain ⟨source, known, holds⟩ := ih
      exact ⟨source, known, .step holds ⟨enters, reference⟩ member⟩
    | true =>
      rw [inside, if_pos reference, deref] at member
      split at member
      · rename_i key named
        obtain ⟨define, found, child⟩ := List.mem_flatMap.1 member
        obtain ⟨kind, same⟩ := g.mem_definesOf.1 found
        exact ⟨.definition define, ⟨kind, outer, key, path, enters, reference, named, same⟩,
          .top child⟩
      · cases member

/-- Each child has one parent, so what is inside of nodes is listed once for each time that the
parent is. -/
theorem Loaded.count_flatMap (loaded : g.Loaded) {onward : Nat → List Nat}
    (within : ∀ id, (onward id).Sublist (g.children id)) {id outer : Nat}
    (above : g.parent? id = some outer) (items : List Nat) :
    (items.flatMap onward).count id = if id ∈ onward outer then items.count outer else 0 := by
  induction items with
  | nil => simp
  | cons head rest ih =>
    have distinct : (onward head).Nodup := (within head).nodup (g.children_nodup head)
    rw [List.flatMap_cons, List.count_append, ih, List.count_cons, distinct.count]
    by_cases same : head = outer
    · subst same
      by_cases inside : id ∈ onward head <;> simp [inside, Nat.add_comm]
    · have absent : id ∉ onward head := by
        intro member
        have parent := loaded.mem_children_iff.1 ((within head).subset member)
        rw [above] at parent
        exact same (Option.some.inj parent).symm
      simp [absent, same]

theorem Loaded.count_flatMap_children (loaded : g.Loaded) {id outer : Nat}
    (above : g.parent? id = some outer) (items : List Nat) :
    (items.flatMap g.children).count id = items.count outer := by
  rw [loaded.count_flatMap (fun _ => List.Sublist.refl _) above,
    if_pos (loaded.mem_children_iff.2 above)]

/-- The sources of a walk that expands `keys`. -/
def sourcesOf (g : Grammar) (keys : List DefineKey) : List Source :=
  .start :: (keys.flatMap g.definesOf).map .definition

theorem sourcesOf_nodup {keys : List DefineKey} (distinct : keys.Nodup) :
    (g.sourcesOf keys).Nodup := by
  refine List.nodup_cons.2 ⟨by simp, ?_⟩
  exact (g.flatMap_definesOf_nodup distinct).map fun _ _ => Source.definition.inj

theorem start_mem_sourcesOf (keys : List DefineKey) : .start ∈ g.sourcesOf keys :=
  List.mem_cons_self

theorem definition_mem_sourcesOf {keys : List DefineKey} {define : Nat} :
    .definition define ∈ g.sourcesOf keys ↔
      ∃ key ∈ keys, g.kind define = .define ∧ g.defineKey? define = some key := by
  simp [sourcesOf, mem_definesOf]

open Classical in
/-- The sources that have a node at the top. -/
theorem countP_tops (loaded : g.Loaded) {id outer : Nat} (above : g.parent? id = some outer)
    (keys : List DefineKey) :
    ((g.sourcesOf keys).countP fun source => id ∈ g.tops start source) =
      (g.contentChildren start).count id + (keys.flatMap g.definesOf).count outer := by
  have child (define : Nat) : id ∈ g.children define ↔ define = outer := by
    rw [loaded.mem_children_iff, above, Option.some.injEq, eq_comm]
  have content : (g.contentChildren start).count id =
      if id ∈ g.contentChildren start then 1 else 0 := (tops_nodup (g := g) .start).count
  have definitions : (keys.flatMap g.definesOf).count outer =
      (keys.flatMap g.definesOf).countP fun define => id ∈ g.children define := by
    refine List.countP_congr fun define _ => ?_
    simp [child]
  rw [sourcesOf, List.countP_cons, List.countP_map, content, definitions, Nat.add_comm]
  simp only [decide_eq_true_eq]
  rfl

/-- Sources hold nodes: what is at their tops, and what is inside of a node that they hold, as far as
`onward` goes there. No reference is followed on the way. -/
structure HeldAlong (g : Grammar) (onward : Nat → List Nat) (start : Nat)
    (held : Source → Nat → Prop) : Prop where
  within : ∀ id, (onward id).Sublist (g.children id)
  held_iff : ∀ source id, held source id ↔
    id ∈ g.tops start source ∨ ∃ outer, id ∈ onward outer ∧ held source outer

namespace HeldAlong

variable {onward : Nat → List Nat} {held : Source → Nat → Prop} {source : Source} {id outer : Nat}
  (along : g.HeldAlong onward start held)

include along

theorem iff_of_parent (loaded : g.Loaded) (above : g.parent? id = some outer) :
    held source id ↔ id ∈ g.tops start source ∨ id ∈ onward outer ∧ held source outer := by
  rw [along.held_iff]
  refine or_congr_right ⟨?_, fun inside => ⟨outer, inside⟩⟩
  rintro ⟨around, member, inside⟩
  have parent := loaded.mem_children_iff.1 ((along.within around).subset member)
  rw [above] at parent
  cases parent
  exact ⟨member, inside⟩

theorem not_of_orphan (loaded : g.Loaded) (orphan : g.parent? id = none) : ¬ held source id := by
  have never := loaded.not_mem_children_of_orphan orphan
  rw [along.held_iff]
  rintro (member | ⟨outer, member, -⟩)
  · exact never _ (mem_children_of_mem_tops member)
  · exact never outer ((along.within outer).subset member)

theorem owner_mem_ancestors (loaded : g.Loaded) (inside : held source id) :
    source.owner start ∈ g.ancestors id := by
  induction id using Nat.strongRecOn with
  | ind id ih =>
    rcases (along.held_iff source id).1 inside with member | ⟨outer, member, around⟩
    · rw [ancestors_of_parent (loaded.mem_children_iff.1 (mem_children_of_mem_tops member))]
      exact List.mem_cons_self
    · have child := (along.within outer).subset member
      rw [ancestors_of_parent (loaded.mem_children_iff.1 child)]
      exact List.mem_cons_of_mem _ (ih outer (g.lt_of_mem_children child) around)

open Classical in
/-- The sources that hold a node have it at the top, or hold its parent and go on from that: no source
does both, as the parent would be its owner. -/
theorem countP_held (loaded : g.Loaded) (above : g.parent? id = some outer)
    (sources : List Source) : (sources.countP fun source => held source id) =
      (sources.countP fun source => id ∈ g.tops start source) +
      if id ∈ onward outer then sources.countP fun source => held source outer else 0 := by
  have split : (sources.countP fun source => held source id) =
      sources.countP fun source => decide (id ∈ g.tops start source) ||
        decide (id ∈ onward outer ∧ held source outer) := by
    refine List.countP_congr fun source _ => ?_
    simpa using along.iff_of_parent loaded above
  rw [split, countP_or_of_apart]
  · by_cases inside : id ∈ onward outer <;> simp [inside]
  · intro source _ top
    have owner := loaded.mem_children_iff.1 (mem_children_of_mem_tops (of_decide_eq_true top))
    rw [above] at owner
    refine decide_eq_false fun both => ?_
    have lower := lt_of_mem_ancestors (along.owner_mem_ancestors loaded both.2)
    rw [← Option.some.inj owner] at lower
    exact Nat.lt_irrefl _ lower

open Classical in
/-- Where a trail is the content of the start, with what is inside of its nodes and of the definitions
of `keys`, it has a node once for each of the sources that hold the node. -/
theorem count_eq_countP (loaded : g.Loaded) {trail : List Nat} {keys : List DefineKey}
    (counted : ∀ item, trail.count item = (g.contentChildren start).count item +
      (trail.flatMap onward).count item + (keys.flatMap g.expansion).count item) (id : Nat) :
    trail.count id = (g.sourcesOf keys).countP fun source => held source id := by
  have expanded : keys.flatMap g.expansion = (keys.flatMap g.definesOf).flatMap g.children := by
    rw [List.flatMap_assoc]
    rfl
  -- A parent comes before its children, so what is held of the parent is known already.
  induction id using Nat.strongRecOn with
  | ind id ih =>
    cases above : g.parent? id with
    | none =>
      have never := loaded.not_mem_children_of_orphan above
      have content : id ∉ g.contentChildren start := fun member =>
        never start (List.mem_filter.1 member).1
      have inside : id ∉ trail.flatMap onward := fun member => by
        obtain ⟨outer, _, member⟩ := List.mem_flatMap.1 member
        exact never outer ((along.within outer).subset member)
      have defined : id ∉ (keys.flatMap g.definesOf).flatMap g.children := fun member => by
        obtain ⟨define, _, member⟩ := List.mem_flatMap.1 member
        exact never define member
      rw [counted, expanded, List.count_eq_zero_of_not_mem content,
        List.count_eq_zero_of_not_mem inside, List.count_eq_zero_of_not_mem defined, eq_comm,
        List.countP_eq_zero]
      intro source _
      simpa using along.not_of_orphan loaded above
    | some outer =>
      have earlier := ih outer (g.parent?_lt above)
      rw [counted, expanded, loaded.count_flatMap along.within above,
        loaded.count_flatMap_children above, along.countP_held loaded above,
        countP_tops loaded above, earlier]
      omega

end HeldAlong

/-- What is inside of a node where a search opens it. -/
def openedContent (g : Grammar) (target : Kind) (id : Nat) : List Nat :=
  if g.Opens target id then g.children id else []

theorem mem_openedContent {id outer : Nat} :
    id ∈ g.openedContent target outer ↔ g.Opens target outer ∧ id ∈ g.children outer := by
  unfold openedContent
  split <;> simp [*]

theorem heldAlong_holds (g : Grammar) (target : Kind) (start : Nat) :
    g.HeldAlong (g.openedContent target) start (g.Holds target start) where
  within id := by
    unfold openedContent
    split
    · exact List.Sublist.refl _
    · exact List.nil_sublist _
  held_iff source id := by
    constructor
    · intro holds
      cases holds with
      | top member => exact .inl member
      | step path opens member =>
        rw [inside_of_opens opens] at member
        exact .inr ⟨_, mem_openedContent.2 ⟨opens, member⟩, path⟩
    · rintro (member | ⟨outer, member, path⟩)
      · exact .top member
      · obtain ⟨opens, member⟩ := mem_openedContent.1 member
        refine .step path opens ?_
        rwa [inside_of_opens opens]

/-- A source holds a node at its top, or one whose parent it holds and the search opens. -/
theorem holds_iff (loaded : g.Loaded) {source : Source} {id outer : Nat}
    (above : g.parent? id = some outer) : g.Holds target start source id ↔
      id ∈ g.tops start source ∨ g.Opens target outer ∧ g.Holds target start source outer := by
  rw [(g.heldAlong_holds target start).iff_of_parent loaded above, mem_openedContent,
    and_iff_left (loaded.mem_children_iff.2 above)]

namespace Walk

variable {trail : List Nat} {keys : List DefineKey}

theorem mem_sourcesOf_iff (walk : Walk g target (g.contentChildren start) [] trail keys)
    (source : Source) : source ∈ g.sourcesOf keys ↔ g.HasSource target start source := by
  cases source with
  | start => exact iff_of_true (start_mem_sourcesOf keys) trivial
  | definition id =>
    rw [definition_mem_sourcesOf]
    constructor
    · rintro ⟨key, expanded, kind, same⟩
      obtain ⟨reference, member, enters, refers, named⟩ := walk.exists_reference expanded
      exact ⟨kind, reference, key, walk.mem_trail_iff.1 member, enters, refers, named, same⟩
    · rintro ⟨kind, reference, key, path, enters, refers, named, same⟩
      have expanded := walk.expands (walk.mem_trail_iff.2 path) enters refers named
      exact ⟨key, expanded.resolve_right List.not_mem_nil, kind, same⟩

open Classical in
/-- A walk takes a node once for each of its sources that holds the node. -/
theorem count_eq_countP_holds (walk : Walk g target (g.contentChildren start) [] trail keys)
    (loaded : g.Loaded) (id : Nat) :
    trail.count id = (g.sourcesOf keys).countP fun source => g.Holds target start source id := by
  refine (g.heldAlong_holds target start).count_eq_countP loaded (fun item => ?_) id
  have opened : (trail.filter (g.Opens target)).flatMap g.children =
      trail.flatMap (g.openedContent target) := by
    rw [flatMap_filter]
    simp only [decide_eq_true_eq]
    rfl
  rw [walk.count_trail, opened]

end Walk

/-- At most one source of a search holds a node. -/
def HeldOnce (g : Grammar) (target : Kind) (start id : Nat) : Prop :=
  ∀ one other, g.HasSource target start one → g.HasSource target start other →
    g.Holds target start one id → g.Holds target start other id → one = other

open Classical in
theorem Walk.count_le_one_iff {trail : List Nat} {keys : List DefineKey}
    (walk : Walk g target (g.contentChildren start) [] trail keys) (loaded : g.Loaded) (id : Nat) :
    trail.count id ≤ 1 ↔ g.HeldOnce target start id := by
  rw [walk.count_eq_countP_holds loaded]
  exact countP_le_one_iff (g.sourcesOf_nodup walk.keys_nodup.1) walk.mem_sourcesOf_iff

/-- A search finds no node twice exactly if each node of the kind stands in the content of one
source at most. -/
theorem nodup_descend_iff_heldOnce (loaded : g.Loaded) :
    (g.descend start target).Nodup ↔ ∀ id, g.kind id = target → g.HeldOnce target start id := by
  obtain ⟨trail, keys, walk, same⟩ := exists_walk g target (g.contentChildren start) []
  have count (id : Nat) : (g.descend start target).count id =
      if g.kind id = target then trail.count id else 0 := by
    rw [descend, findings, same]
    by_cases kind : g.kind id = target
    · rw [if_pos kind, List.count_filter (by simpa using kind)]
    · rw [if_neg kind]
      exact List.count_eq_zero_of_not_mem (by simp [kind])
  rw [nodup_iff_of_count count]
  exact forall_congr' fun id => imp_congr_right fun _ => walk.count_le_one_iff loaded id

end Grammar

end RelaxDoc
