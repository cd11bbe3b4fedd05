import RelaxDoc.Proofs.Grammar.Spans
import RelaxDoc.Proofs.Search.Expansion

/-! Searches downwards as recursion: what is inside of a node is gone through before what comes
behind the node, and a reference is replaced by its definitions where its key is met first. -/
namespace RelaxDoc.Grammar

variable {g : Grammar} {target : Kind}

/-- Going through `pending` from left to right with `visited` expanded finds `found`, and has
`after` expanded at the end. -/
inductive Unfolds (g : Grammar) (target : Kind) : (pending : List Nat) →
    (visited : List DefineKey) → (found : List Nat) → (after : List DefineKey) → Prop where
  | done : Unfolds g target [] visited [] visited
  /-- What is searched for is found, and not entered. -/
  | hit {id : Nat} (kind : g.kind id = target) (rest : Unfolds g target pending visited found after) :
      Unfolds g target (id :: pending) visited (id :: found) after
  /-- Elements and attributes are not entered. -/
  | boundary {id : Nat} (other : g.kind id ≠ target)
      (kind : g.kind id = .element ∨ g.kind id = .attr)
      (rest : Unfolds g target pending visited found after) :
      Unfolds g target (id :: pending) visited found after
  /-- A reference without a name stands for nothing. -/
  | unnamed {id : Nat} (other : g.kind id ≠ target) (refers : (g.kind id).isReference = true)
      (named : g.defineKey? id = none) (rest : Unfolds g target pending visited found after) :
      Unfolds g target (id :: pending) visited found after
  /-- A reference by a key that was met before is passed. -/
  | again {id : Nat} (other : g.kind id ≠ target) (refers : (g.kind id).isReference = true)
      (named : g.defineKey? id = some key) (old : key ∈ visited)
      (rest : Unfolds g target pending visited found after) :
      Unfolds g target (id :: pending) visited found after
  /-- A reference by a new key is replaced by the children of its definitions. -/
  | expand {id : Nat} (other : g.kind id ≠ target) (refers : (g.kind id).isReference = true)
      (named : g.defineKey? id = some key) (fresh : key ∉ visited)
      (within : Unfolds g target ((g.definesOf key).flatMap g.children) (key :: visited) deeper between)
      (rest : Unfolds g target pending between found after) :
      Unfolds g target (id :: pending) visited (deeper ++ found) after
  /-- Any other node is replaced by its children. -/
  | enter {id : Nat} (other : g.kind id ≠ target) (element : g.kind id ≠ .element)
      (attr : g.kind id ≠ .attr) (plain : (g.kind id).isReference = false)
      (within : Unfolds g target (g.children id) visited deeper between)
      (rest : Unfolds g target pending between found after) :
      Unfolds g target (id :: pending) visited (deeper ++ found) after

namespace Unfolds

variable {pending left right found : List Nat} {visited after : List DefineKey}

/-- Nodes in a row are gone through one part after the other. -/
theorem exists_of_append (unfolds : g.Unfolds target (left ++ right) visited found after) :
    ∃ first between second, g.Unfolds target left visited first between ∧
      g.Unfolds target right between second after ∧ found = first ++ second := by
  induction left generalizing visited found with
  | nil => exact ⟨[], visited, found, .done, unfolds, rfl⟩
  | cons id later ih =>
    cases unfolds with
    | hit kind rest =>
      obtain ⟨first, between, second, here, there, rfl⟩ := ih rest
      exact ⟨id :: first, between, second, .hit kind here, there, rfl⟩
    | boundary other kind rest =>
      obtain ⟨first, between, second, here, there, rfl⟩ := ih rest
      exact ⟨first, between, second, .boundary other kind here, there, rfl⟩
    | unnamed other refers named rest =>
      obtain ⟨first, between, second, here, there, rfl⟩ := ih rest
      exact ⟨first, between, second, .unnamed other refers named here, there, rfl⟩
    | again other refers named old rest =>
      obtain ⟨first, between, second, here, there, rfl⟩ := ih rest
      exact ⟨first, between, second, .again other refers named old here, there, rfl⟩
    | expand other refers named fresh within rest =>
      obtain ⟨first, between, second, here, there, rfl⟩ := ih rest
      exact ⟨_, between, second, .expand other refers named fresh within here, there,
        (List.append_assoc ..).symm⟩
    | enter other element attr plain within rest =>
      obtain ⟨first, between, second, here, there, rfl⟩ := ih rest
      exact ⟨_, between, second, .enter other element attr plain within here, there,
        (List.append_assoc ..).symm⟩

end Unfolds

/-- A search that keeps what is pending on a stack goes through the same nodes as the recursion. -/
theorem Walk.exists_unfolds {pending trail : List Nat} {visited keys : List DefineKey}
    (walk : Walk g target pending visited trail keys) :
    ∃ after, g.Unfolds target pending visited (trail.filter fun id => g.kind id = target) after := by
  induction walk with
  | done => exact ⟨_, .done⟩
  | @pass rest visited trail keys id idle walk ih =>
    obtain ⟨after, unfolds⟩ := ih
    refine ⟨after, ?_⟩
    by_cases kind : g.kind id = target
    · simpa [kind] using unfolds.hit kind
    · have kept : (id :: trail).filter (fun id => g.kind id = target) =
          trail.filter fun id => g.kind id = target := by simp [kind]
      rw [kept]
      by_cases boundary : g.kind id = .element ∨ g.kind id = .attr
      · exact unfolds.boundary kind boundary
      · obtain ⟨refers, old⟩ := idle ⟨kind, not_or.1 boundary⟩
        cases named : g.defineKey? id with
        | none => exact unfolds.unnamed kind refers named
        | some key => exact unfolds.again kind refers named (old key named)
  | @expand key rest visited trail keys id enters refers named fresh walk ih =>
    obtain ⟨after, unfolds⟩ := ih
    obtain ⟨inner, between, found, within, behind, same⟩ := unfolds.exists_of_append
    refine ⟨after, ?_⟩
    rw [List.filter_cons_of_neg (by simpa using enters.1), same]
    exact .expand enters.1 refers named fresh within behind
  | @enter rest visited trail keys id opens walk ih =>
    obtain ⟨after, unfolds⟩ := ih
    obtain ⟨inner, between, found, within, behind, same⟩ := unfolds.exists_of_append
    obtain ⟨⟨other, element, attr⟩, plain⟩ := opens
    refine ⟨after, ?_⟩
    rw [List.filter_cons_of_neg (by simpa using other), same]
    exact .enter other element attr plain within behind

/-- What a search finds below pending nodes. -/
def hits (g : Grammar) (target : Kind) (pending : List Nat) (visited : List DefineKey) : List Nat :=
  (g.searchBelow target pending visited).filterMap Finding.node?

theorem not_boundary_of_isReference {id : Nat} (refers : (g.kind id).isReference = true) :
    ¬ (g.kind id = .element ∨ g.kind id = .attr) := by
  rintro (kind | kind) <;> rw [kind] at refers <;> cases refers

theorem hits_found {id : Nat} {rest : List Nat} {visited : List DefineKey}
    (kind : g.kind id = target) :
    g.hits target (id :: rest) visited = id :: g.hits target rest visited := by
  rw [hits, searchBelow, if_pos kind]
  rfl

theorem hits_boundary {id : Nat} {rest : List Nat} {visited : List DefineKey}
    (other : g.kind id ≠ target) (kind : g.kind id = .element ∨ g.kind id = .attr) :
    g.hits target (id :: rest) visited = g.hits target rest visited := by
  rw [hits, searchBelow, if_neg other, if_pos kind]
  rfl

/-- A reference that has no name, or a key that counts as expanded, is passed. -/
theorem hits_again {id : Nat} {rest : List Nat} {visited : List DefineKey}
    (other : g.kind id ≠ target) (refers : (g.kind id).isReference = true)
    (old : ∀ key, g.defineKey? id = some key → key ∈ visited) :
    g.hits target (id :: rest) visited = g.hits target rest visited := by
  rw [hits, searchBelow, if_neg other, if_neg (not_boundary_of_isReference refers), if_pos refers]
  cases named : g.defineKey? id with
  | none => rfl
  | some key =>
    simp only [List.contains_iff_mem, old key named, ↓reduceDIte]
    rfl

theorem hits_expand {id : Nat} {key : DefineKey} {rest : List Nat} {visited : List DefineKey}
    (other : g.kind id ≠ target) (refers : (g.kind id).isReference = true)
    (named : g.defineKey? id = some key) (fresh : key ∉ visited) :
    g.hits target (id :: rest) visited = g.hits target (g.expansion key ++ rest) (key :: visited) := by
  rw [hits, searchBelow, if_neg other, if_neg (not_boundary_of_isReference refers), if_pos refers]
  simp only [named, List.contains_iff_mem, fresh, ↓reduceDIte]
  split
  · rename_i undefined
    rw [hits, expansion, undefined]
    rfl
  · rfl

theorem hits_enter {id : Nat} {rest : List Nat} {visited : List DefineKey}
    (opens : g.Opens target id) :
    g.hits target (id :: rest) visited = g.hits target (g.children id ++ rest) visited := by
  obtain ⟨⟨other, inner⟩, plain⟩ := opens
  rw [hits, searchBelow, if_neg other, if_neg (not_or.2 inner), if_neg (by simp [plain])]
  rfl

/-- A search finds what the recursion finds, and goes on behind it with the same keys expanded. -/
theorem Unfolds.hits_append {pending found : List Nat} {visited after : List DefineKey}
    (unfolds : g.Unfolds target pending visited found after) (later : List Nat) :
    g.hits target (pending ++ later) visited = found ++ g.hits target later after := by
  induction unfolds generalizing later with
  | done => rfl
  | hit kind _ ih => rw [List.cons_append, hits_found kind, ih, List.cons_append]
  | boundary other kind _ ih => rw [List.cons_append, hits_boundary other kind, ih]
  | unnamed other refers named _ ih =>
    rw [List.cons_append, hits_again other refers (by simp [named]), ih]
  | again other refers named old _ ih =>
    rw [List.cons_append, hits_again other refers (by simp [named, old]), ih]
  | expand other refers named fresh _ _ ihWithin ihRest =>
    rw [List.cons_append, hits_expand other refers named fresh, expansion, ihWithin, ihRest,
      List.append_assoc]
  | enter other element attr plain _ _ ihWithin ihRest =>
    rw [List.cons_append, hits_enter ⟨⟨other, element, attr⟩, plain⟩, ihWithin, ihRest,
      List.append_assoc]

/-- What the recursion finds is what the search finds. -/
theorem Unfolds.hits_eq {pending found : List Nat} {visited after : List DefineKey}
    (unfolds : g.Unfolds target pending visited found after) : g.hits target pending visited = found := by
  have same := unfolds.hits_append []
  rw [List.append_nil] at same
  rw [same, hits, searchBelow]
  simp

/-- A search finds the nodes of the kind that are reached past no key that counts as expanded. -/
theorem mem_hits_iff {pending : List Nat} {visited : List DefineKey} {id : Nat} :
    id ∈ g.hits target pending visited ↔
      g.kind id = target ∧ g.Reaches (g.EntersBut visited target) pending id := by
  obtain ⟨trail, keys, walk, same⟩ := exists_walk g target pending visited
  rw [hits, same, List.mem_filter, walk.mem_trail_iff_reaches, decide_eq_true_eq, and_comm]

/-- The recursion below a node finds what the search finds, and nothing else. -/
theorem exists_unfolds_iff {start : Nat} {found : List Nat} :
    (∃ after, g.Unfolds target (g.contentChildren start) [] found after) ↔
      found = g.descend start target := by
  constructor
  · intro ⟨after, unfolds⟩
    exact unfolds.hits_eq.symm
  · intro same
    obtain ⟨trail, keys, walk, hits⟩ := exists_walk g target (g.contentChildren start) []
    rw [same, descend, findings, hits]
    exact walk.exists_unfolds

theorem Reaches.of_subset {through : Nat → Prop} {tops more : List Nat} {id : Nat}
    (path : g.Reaches through tops id) (subset : ∀ top ∈ tops, top ∈ more) :
    g.Reaches through more id := by
  induction path with
  | top member => exact .top (subset _ member)
  | step _ passes member ih => exact .step ih passes member

/-- A search from `tops` meets no reference by one of the keys in `barred`. -/
def MeetsNone (g : Grammar) (target : Kind) (barred : List DefineKey) (tops : List Nat) : Prop :=
  ∀ id, g.Reaches (g.Enters target) tops id → g.Enters target id → g.EntersBut barred target id

namespace MeetsNone

variable {id : Nat} {rest : List Nat} {barred : List DefineKey}

theorem tail (none : g.MeetsNone target barred (id :: rest)) : g.MeetsNone target barred rest :=
  fun inner path => none inner (path.of_subset fun _ => List.mem_cons_of_mem id)

theorem inside (none : g.MeetsNone target barred (id :: rest)) (enters : g.Enters target id) :
    g.MeetsNone target barred (g.inside id) := by
  intro inner path
  have top : g.Reaches (g.Enters target) (id :: rest) id := .top (List.mem_cons_self ..)
  exact none inner (top.extend enters path)

end MeetsNone

/-- Keys that are not met make no difference, whether they count as expanded or not. -/
theorem Unfolds.barring {pending found : List Nat} {visited after barred : List DefineKey}
    (unfolds : g.Unfolds target pending visited found after)
    (none : g.MeetsNone target barred pending) :
    g.Unfolds target pending (visited ++ barred) found (after ++ barred) := by
  induction unfolds with
  | done => exact .done
  | hit kind _ ih => exact .hit kind (ih none.tail)
  | boundary other kind _ ih => exact .boundary other kind (ih none.tail)
  | unnamed other refers named _ ih => exact .unnamed other refers named (ih none.tail)
  | again other refers named old _ ih =>
    exact .again other refers named (List.mem_append_left _ old) (ih none.tail)
  | @expand key visited _ _ _ _ _ id other refers named fresh _ _ ihWithin ihRest =>
    have enters : g.Enters target id := ⟨other, not_or.1 (not_boundary_of_isReference refers)⟩
    have unmet := (none id (.top (List.mem_cons_self ..)) enters).2 refers
    have new : key ∉ visited ++ barred :=
      fun old => (List.mem_append.1 old).elim fresh fun among => unmet key among named
    have within := none.inside enters
    rw [Grammar.inside, if_pos refers, deref, named] at within
    exact .expand other refers named new (ihWithin within) (ihRest none.tail)
  | @enter _ _ _ _ _ _ id other element attr plain _ _ ihWithin ihRest =>
    have within := none.inside ⟨other, element, attr⟩
    rw [Grammar.inside, if_neg (by simp [plain])] at within
    exact .enter other element attr plain (ihWithin within) (ihRest none.tail)

/-- A search below a node finds the same when keys that it does not meet count as expanded. -/
theorem hits_of_meetsNone {start : Nat} {barred : List DefineKey}
    (none : g.MeetsNone target barred (g.contentChildren start)) :
    g.hits target (g.contentChildren start) barred = g.descend start target := by
  obtain ⟨after, unfolds⟩ := exists_unfolds_iff.2 (rfl : g.descend start target = _)
  exact (unfolds.barring none).hits_eq

/-- A search from `tops` meets no reference. -/
def MeetsNoReference (g : Grammar) (target : Kind) (tops : List Nat) : Prop :=
  ∀ id, g.Reaches (g.Enters target) tops id → g.Enters target id → (g.kind id).isReference = false

namespace MeetsNoReference

variable {id : Nat} {rest : List Nat}

theorem tail (plain : g.MeetsNoReference target (id :: rest)) : g.MeetsNoReference target rest :=
  fun inner path => plain inner (path.of_subset fun _ => List.mem_cons_of_mem id)

theorem children (plain : g.MeetsNoReference target (id :: rest)) (enters : g.Enters target id) :
    g.MeetsNoReference target (g.children id) := by
  intro inner path
  have top : g.Reaches (g.Enters target) (id :: rest) id := .top (List.mem_cons_self ..)
  refine plain inner (top.extend enters ?_)
  rwa [inside, if_neg (by simp [plain id top enters])]

theorem not_isReference (plain : g.MeetsNoReference target (id :: rest))
    (other : g.kind id ≠ target) : (g.kind id).isReference = false := by
  refine Bool.eq_false_iff.2 fun refers => ?_
  have enters := not_or.1 (not_boundary_of_isReference refers)
  rw [plain id (.top (List.mem_cons_self ..)) ⟨other, enters⟩] at refers
  cases refers

end MeetsNoReference

namespace Unfolds

variable {pending found : List Nat} {visited after : List DefineKey}

/-- Without references, what the recursion finds is at or below what was pending. -/
theorem exists_top (unfolds : g.Unfolds target pending visited found after) (loaded : g.Loaded)
    (plain : g.MeetsNoReference target pending) {id : Nat} (member : id ∈ found) :
    ∃ top ∈ pending, top = id ∨ top ∈ g.ancestors id := by
  induction unfolds with
  | done => cases member
  | hit _ _ ih =>
    rcases List.mem_cons.1 member with rfl | further
    · exact ⟨id, List.mem_cons_self .., .inl rfl⟩
    · obtain ⟨top, among, here⟩ := ih plain.tail further
      exact ⟨top, List.mem_cons_of_mem _ among, here⟩
  | boundary _ _ _ ih =>
    obtain ⟨top, among, here⟩ := ih plain.tail member
    exact ⟨top, List.mem_cons_of_mem _ among, here⟩
  | unnamed other refers | again other refers | expand other refers =>
    rw [plain.not_isReference other] at refers
    cases refers
  | @enter _ _ _ _ _ _ outer other element attr _ _ _ ihWithin ihRest =>
    rcases List.mem_append.1 member with within | behind
    · obtain ⟨top, child, here⟩ := ihWithin (plain.children ⟨other, element, attr⟩) within
      exact ⟨outer, List.mem_cons_self .., .inr (loaded.mem_ancestors_of_child child here)⟩
    · obtain ⟨top, among, here⟩ := ihRest plain.tail behind
      exact ⟨top, List.mem_cons_of_mem _ among, here⟩

/-- Without references, the recursion through siblings finds nodes in document order. -/
theorem sorted (unfolds : g.Unfolds target pending visited found after) (loaded : g.Loaded)
    {outer : Nat} (siblings : pending.Sublist (g.children outer))
    (plain : g.MeetsNoReference target pending) : found.Pairwise (· < ·) := by
  induction unfolds generalizing outer with
  | done => exact .nil
  | hit _ rest ih =>
    refine .cons (fun later member => ?_) (ih (List.sublist_of_cons_sublist siblings) plain.tail)
    obtain ⟨top, among, here⟩ := rest.exists_top loaded plain.tail member
    have less := List.rel_of_pairwise_cons ((g.children_sorted outer).sublist siblings) among
    rcases here with rfl | above
    · exact less
    · exact Nat.lt_trans less (lt_of_mem_ancestors above)
  | boundary _ _ _ ih => exact ih (List.sublist_of_cons_sublist siblings) plain.tail
  | unnamed other refers | again other refers | expand other refers =>
    rw [plain.not_isReference other] at refers
    cases refers
  | @enter _ _ _ _ _ _ id other element attr _ within rest ihWithin ihRest =>
    have below := plain.children ⟨other, element, attr⟩
    refine List.pairwise_append.2 ⟨ihWithin (.refl _) below,
      ihRest (List.sublist_of_cons_sublist siblings) plain.tail, ?_⟩
    intro one first later second
    -- What is found in the children stands below this node, so it comes before the next sibling.
    obtain ⟨child, member, here⟩ := within.exists_top loaded below first
    have above := loaded.mem_ancestors_of_child member here
    obtain ⟨sibling, among, there⟩ := rest.exists_top loaded plain.tail second
    have less := List.rel_of_pairwise_cons ((g.children_sorted outer).sublist siblings) among
    have before := loaded.lt_of_sibling (siblings.subset (List.mem_cons_self ..))
      (siblings.subset (List.mem_cons_of_mem _ among)) less above
    rcases there with rfl | further
    · exact before
    · exact Nat.lt_trans before (lt_of_mem_ancestors further)

end Unfolds

/-- A search downwards is the recursion that expands a key where it meets it first. Although it
expands each key once, it finds all nodes of the kind that paths of expansion lead to, and in
document order if it meets no reference. -/
theorem descend_eq_unfolding (loaded : g.Loaded) (start : Nat) (target : Kind) :
    (∀ found, (∃ after, g.Unfolds target (g.contentChildren start) [] found after) ↔
      found = g.descend start target) ∧
    (∀ id, id ∈ g.descend start target ↔
      g.kind id = target ∧ g.Reaches (g.Enters target) (g.contentChildren start) id) ∧
    (g.MeetsNoReference target (g.contentChildren start) →
      (g.descend start target).Pairwise (· < ·)) := by
  refine ⟨fun found => exists_unfolds_iff, fun id => mem_descend_iff, fun plain => ?_⟩
  obtain ⟨after, unfolds⟩ := exists_unfolds_iff.2 (rfl : g.descend start target = _)
  have siblings : (g.contentChildren start).Sublist (g.children start) := List.filter_sublist
  exact unfolds.sorted loaded siblings plain

/-- An element with elements in place, and one whose content is a definition that goes on with
itself. -/
def unfoldedDocument : Xml.Document := .ofContent
  [.pattern .start none [.pattern .element "e"
    [.pattern .optional none [.pattern .element "a" []],
     .pattern .element "b" [.pattern .ref "x" []]]],
   .pattern .define "x" [.pattern .ref "x" [], .pattern .element "c" []]]

/-- The grammar of `unfoldedDocument`; its elements are at 2, 4, 5 and 9. -/
def unfolded : Grammar := .ofKept unfoldedDocument rfl

theorem unfolded_loaded : unfolded.Loaded := loaded_ofKept _ rfl rfl

theorem unfolded_plain : unfolded.MeetsNoReference .element (unfolded.contentChildren 2) := by
  intro id path _
  have among : id ∈ [3, 4, 5] := path.mem_of_closed (by decide +kernel) (by decide +kernel)
  have none : ∀ id ∈ [3, 4, 5], (unfolded.kind id).isReference = false := by decide +kernel
  exact none id among

/-- The definition is gone through once, though it refers to itself. -/
theorem unfolded_recursion :
    unfolded.Unfolds .element (unfolded.contentChildren 5) [] [9] [⟨some 0, "x"⟩] := by
  have within : unfolded.Unfolds .element [8, 9] [⟨some 0, "x"⟩] [9] [⟨some 0, "x"⟩] := by
    have named : unfolded.defineKey? 8 = some ⟨some 0, "x"⟩ := by decide +kernel
    refine .again (by decide +kernel) (by decide +kernel) named (List.mem_cons_self ..) ?_
    exact .hit (by decide +kernel) .done
  have content : unfolded.contentChildren 5 = [6] := by decide +kernel
  have named : unfolded.defineKey? 6 = some ⟨some 0, "x"⟩ := by decide +kernel
  have other : unfolded.kind 6 ≠ .element := by decide +kernel
  have inner : (unfolded.definesOf ⟨some 0, "x"⟩).flatMap unfolded.children = [8, 9] := by
    decide +kernel
  rw [content]
  exact .expand other (by decide +kernel) named List.not_mem_nil (inner ▸ within) .done

theorem unfolded_descend : unfolded.Loaded ∧ unfolded.descend 5 .element = [9] ∧
    unfolded.MeetsNoReference .element (unfolded.contentChildren 2) ∧
    (unfolded.descend 2 .element).Pairwise (· < ·) := by
  refine ⟨unfolded_loaded, ?_, unfolded_plain, ?_⟩
  · have same := (descend_eq_unfolding unfolded_loaded 5 .element).1 [9]
    exact (same.1 ⟨_, unfolded_recursion⟩).symm
  · exact (descend_eq_unfolding unfolded_loaded 2 .element).2.2 unfolded_plain

end RelaxDoc.Grammar
