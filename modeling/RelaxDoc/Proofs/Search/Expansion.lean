import RelaxDoc.Proofs.Grammar.Keys
import RelaxDoc.Search.Descent
import Mathlib.Data.List.Chain

/-! Paths of expansion, and searches downwards as walks along them: what a search finds is
what such a path leads to, although a search expands each key only once. -/
namespace RelaxDoc.Grammar

variable {g : Grammar} {target : Kind}

/-- A search for `target` goes on to what is inside a node unless it is searched for itself, or an
element or attribute. -/
def Enters (g : Grammar) (target : Kind) (id : Nat) : Prop :=
  g.kind id ≠ target ∧ g.kind id ≠ .element ∧ g.kind id ≠ .attr

instance (g : Grammar) (target : Kind) : DecidablePred (g.Enters target) :=
  fun id => inferInstanceAs
    (Decidable (g.kind id ≠ target ∧ g.kind id ≠ .element ∧ g.kind id ≠ .attr))

/-- The same when the keys in `barred` count as expanded, so that it passes by their references. -/
def EntersBut (g : Grammar) (barred : List DefineKey) (target : Kind) (id : Nat) : Prop :=
  g.Enters target id ∧ ((g.kind id).isReference = true → ∀ key ∈ barred, g.defineKey? id ≠ some key)

theorem entersBut_nil : g.EntersBut [] target = g.Enters target := by
  funext id
  exact propext ⟨And.left, fun enters => ⟨enters, fun _ _ => nofun⟩⟩

/-- What is inside a node: for a reference the children of its definitions, else its own. -/
def inside (g : Grammar) (id : Nat) : List Nat :=
  if (g.kind id).isReference then g.deref id else g.children id

/-- Nodes that a search goes on from to their own children. -/
def Opens (g : Grammar) (target : Kind) (id : Nat) : Prop :=
  g.Enters target id ∧ (g.kind id).isReference = false

instance (g : Grammar) (target : Kind) : DecidablePred (g.Opens target) :=
  fun id => inferInstanceAs (Decidable (g.Enters target id ∧ (g.kind id).isReference = false))

/-- A path of expansion from one of `tops`: each step goes from a node that satisfies `through`
to one inside of it. -/
inductive Reaches (g : Grammar) (through : Nat → Prop) (tops : List Nat) : Nat → Prop where
  | top {id : Nat} (member : id ∈ tops) : Reaches g through tops id
  | step {outer id : Nat} (path : Reaches g through tops outer) (passes : through outer)
      (member : id ∈ g.inside outer) : Reaches g through tops id

theorem Reaches.mono {through weaker : Nat → Prop} {tops : List Nat} {id : Nat}
    (path : g.Reaches through tops id) (weakens : ∀ outer, through outer → weaker outer) :
    g.Reaches weaker tops id := by
  induction path with
  | top member => exact .top member
  | step _ passes member ih => exact .step ih (weakens _ passes) member

/-- What is reached inside of a node that a path can go on from is reached by the path. -/
theorem Reaches.extend {through : Nat → Prop} {tops : List Nat} {outer id : Nat}
    (path : g.Reaches through tops outer) (passes : through outer)
    (further : g.Reaches through (g.inside outer) id) : g.Reaches through tops id := by
  induction further with
  | top member => exact .step path passes member
  | step _ passes member ih => exact .step ih passes member

/-- A list of nodes, each inside of the one before it, is a path. -/
theorem Reaches.of_chain {through : Nat → Prop} {tops : List Nat} (first : Nat) (rest : List Nat)
    (member : first ∈ tops)
    (chain : (first :: rest).IsChain fun outer id => through outer ∧ id ∈ g.inside outer) :
    g.Reaches through tops (rest.getLastD first) := by
  have path : g.Reaches through tops first := .top member
  clear member
  induction rest generalizing first with
  | nil => exact path
  | cons second rest ih =>
    obtain ⟨⟨passes, within⟩, later⟩ := List.isChain_cons_cons.1 chain
    rw [List.getLastD_cons]
    exact ih second later (.step path passes within)

/-- Nodes that hold the tops and all that is inside of them hold whatever is reached. -/
theorem Reaches.mem_of_closed {through : Nat → Prop} {tops closed : List Nat} {id : Nat}
    (path : g.Reaches through tops id) (start : ∀ top ∈ tops, top ∈ closed)
    (steps : ∀ outer ∈ closed, through outer → ∀ inner ∈ g.inside outer, inner ∈ closed) :
    id ∈ closed := by
  induction path with
  | top member => exact start _ member
  | step _ passes member ih => exact steps _ ih passes _ member

/-- A search downwards: it starts from pending nodes with `visited` expanded, takes the nodes
of the trail one by one, and expands `keys`. -/
inductive Walk (g : Grammar) (target : Kind) :
    (pending : List Nat) → (visited : List DefineKey) → (trail : List Nat) →
      (keys : List DefineKey) → Prop where
  | done : Walk g target [] visited [] []
  | pass {id : Nat} (idle : g.Enters target id →
        (g.kind id).isReference = true ∧ ∀ key, g.defineKey? id = some key → key ∈ visited)
      (walk : Walk g target rest visited trail keys) :
      Walk g target (id :: rest) visited (id :: trail) keys
  | expand {id : Nat} (enters : g.Enters target id) (reference : (g.kind id).isReference = true)
      (named : g.defineKey? id = some key) (fresh : key ∉ visited)
      (walk : Walk g target (g.expansion key ++ rest) (key :: visited) trail keys) :
      Walk g target (id :: rest) visited (id :: trail) (key :: keys)
  | enter {id : Nat} (opens : g.Opens target id)
      (walk : Walk g target (g.children id ++ rest) visited trail keys) :
      Walk g target (id :: rest) visited (id :: trail) keys

/-- Every search is a walk, and it finds what is searched for on the trail. -/
theorem exists_walk (g : Grammar) (target : Kind) (pending : List Nat) (visited : List DefineKey) :
    ∃ trail keys, Walk g target pending visited trail keys ∧
      (g.searchBelow target pending visited).filterMap Finding.node? =
        trail.filter fun id => g.kind id = target := by
  induction pending, visited using searchBelow.induct g target with
  | case1 visited => exact ⟨[], [], .done, by rw [searchBelow]; rfl⟩
  | case2 visited id rest _ _ found ih =>
    obtain ⟨trail, keys, walk, same⟩ := ih
    refine ⟨id :: trail, keys, .pass (fun enters => absurd found enters.1) walk, ?_⟩
    rw [searchBelow, if_pos found]
    exact (congrArg (id :: ·) same).trans (by simp [found])
  | case3 visited id rest _ _ other boundary ih =>
    obtain ⟨trail, keys, walk, same⟩ := ih
    refine ⟨id :: trail, keys, .pass (fun enters => ?_) walk, ?_⟩
    · exact absurd boundary (not_or.2 enters.2)
    · rw [searchBelow, if_neg other, if_pos boundary, same]
      simp [other]
  | case4 visited id rest _ _ other inner reference unnamed ih =>
    obtain ⟨trail, keys, walk, same⟩ := ih
    refine ⟨id :: trail, keys, .pass (fun _ => ⟨reference, ?_⟩) walk, ?_⟩
    · intro key named
      rw [unnamed] at named
      cases named
    · rw [searchBelow, if_neg other, if_neg inner, if_pos reference]
      simp [unnamed, same, other]
  | case5 visited id rest _ _ other inner reference key named old ih =>
    obtain ⟨trail, keys, walk, same⟩ := ih
    refine ⟨id :: trail, keys, .pass (fun _ => ⟨reference, ?_⟩) walk, ?_⟩
    · intro again named'
      rw [named] at named'
      cases named'
      simpa using old
    · rw [searchBelow, if_neg other, if_neg inner, if_pos reference]
      simp only [named, old, ↓reduceDIte, same]
      simp [other]
  | case6 visited id rest _ _ other inner reference key named fresh _ undefined ih =>
    obtain ⟨trail, keys, walk, same⟩ := ih
    refine ⟨id :: trail, key :: keys,
      .expand ⟨other, not_or.1 inner⟩ reference named (by simpa using fresh) ?_, ?_⟩
    · simpa [expansion, undefined] using walk
    · rw [searchBelow, if_neg other, if_neg inner, if_pos reference]
      simp only [named, fresh, Bool.false_eq_true, ↓reduceDIte]
      split
      · exact same.trans (by simp [other])
      · rename_i found
        rw [undefined] at found
        cases found
  | case7 visited id rest _ _ other inner reference key named fresh _ first more defined _ _ _ ih =>
    obtain ⟨trail, keys, walk, same⟩ := ih
    refine ⟨id :: trail, key :: keys,
      .expand ⟨other, not_or.1 inner⟩ reference named (by simpa using fresh) walk, ?_⟩
    rw [searchBelow, if_neg other, if_neg inner, if_pos reference]
    simp only [named, fresh, Bool.false_eq_true, ↓reduceDIte]
    split
    · rename_i found
      rw [defined] at found
      cases found
    · simpa [other] using same
  | case8 visited id rest _ _ other inner plain ih =>
    obtain ⟨trail, keys, walk, same⟩ := ih
    refine ⟨id :: trail, keys, .enter ⟨⟨other, not_or.1 inner⟩, by simpa using plain⟩ walk, ?_⟩
    rw [searchBelow, if_neg other, if_neg inner, if_neg plain, same]
    simp [other]

namespace Walk

variable {pending trail : List Nat} {visited keys : List DefineKey}

/-- The trail is what was pending at first, with the children of what was opened and of the
definitions of the keys: each node as often as it is in these. -/
theorem count_trail (walk : Walk g target pending visited trail keys) (item : Nat) :
    trail.count item = pending.count item +
      ((trail.filter (g.Opens target)).flatMap g.children).count item +
      (keys.flatMap g.expansion).count item := by
  induction walk with
  | done => rfl
  | @pass _ _ _ _ id idle walk ih =>
    have closed : ¬ g.Opens target id := by
      intro opens
      have reference := (idle opens.1).1
      rw [opens.2] at reference
      cases reference
    rw [List.filter_cons_of_neg (by simpa using closed), List.count_cons, List.count_cons, ih]
    omega
  | @expand _ _ _ _ _ id enters reference named fresh walk ih =>
    have closed : ¬ g.Opens target id := by
      intro opens
      rw [opens.2] at reference
      cases reference
    rw [List.filter_cons_of_neg (by simpa using closed), List.flatMap_cons, List.count_append,
      List.count_cons, List.count_cons, ih, List.count_append]
    omega
  | @enter _ _ _ _ id opens walk ih =>
    rw [List.filter_cons_of_pos (by simpa using opens), List.flatMap_cons, List.count_append,
      List.count_cons, List.count_cons, ih, List.count_append]
    omega

/-- A key is expanded once. -/
theorem keys_nodup (walk : Walk g target pending visited trail keys) :
    keys.Nodup ∧ ∀ key ∈ keys, key ∉ visited := by
  induction walk with
  | done => exact ⟨.nil, nofun⟩
  | pass _ _ ih => exact ih
  | enter _ _ ih => exact ih
  | @expand _ _ _ _ _ _ _ _ _ fresh _ ih =>
    obtain ⟨distinct, apart⟩ := ih
    refine ⟨List.nodup_cons.2 ⟨fun member => apart _ member (List.mem_cons_self ..), distinct⟩, ?_⟩
    intro other member
    rcases List.mem_cons.1 member with rfl | further
    · exact fresh
    · exact fun old => apart other further (List.mem_cons_of_mem _ old)

/-- A key is expanded at a reference on the trail. -/
theorem exists_reference (walk : Walk g target pending visited trail keys) {key : DefineKey}
    (member : key ∈ keys) : ∃ id ∈ trail, g.Enters target id ∧
      (g.kind id).isReference = true ∧ g.defineKey? id = some key := by
  induction walk with
  | done => cases member
  | pass _ _ ih | enter _ _ ih =>
    obtain ⟨id, further, meets⟩ := ih member
    exact ⟨id, List.mem_cons_of_mem _ further, meets⟩
  | expand enters reference named _ _ ih =>
    rcases List.mem_cons.1 member with rfl | further
    · exact ⟨_, List.mem_cons_self .., enters, reference, named⟩
    · obtain ⟨id, further, meets⟩ := ih further
      exact ⟨id, List.mem_cons_of_mem _ further, meets⟩

/-- The key of a reference on the trail is expanded, if it was not before. -/
theorem expands (walk : Walk g target pending visited trail keys) {id : Nat} {key : DefineKey}
    (member : id ∈ trail) (enters : g.Enters target id)
    (reference : (g.kind id).isReference = true) (named : g.defineKey? id = some key) :
    key ∈ keys ∨ key ∈ visited := by
  induction walk with
  | done => cases member
  | pass idle _ ih =>
    rcases List.mem_cons.1 member with rfl | further
    · exact .inr ((idle enters).2 key named)
    · exact ih further
  | enter opens _ ih =>
    rcases List.mem_cons.1 member with rfl | further
    · rw [opens.2] at reference
      cases reference
    · exact ih further
  | expand _ _ same _ _ ih =>
    rcases List.mem_cons.1 member with rfl | further
    · rw [named] at same
      cases same
      exact .inl (List.mem_cons_self ..)
    · rcases ih further with new | old
      · exact .inl (List.mem_cons_of_mem _ new)
      · rcases List.mem_cons.1 old with rfl | older
        · exact .inl (List.mem_cons_self ..)
        · exact .inr older

/-- What is pending and what is inside of nodes on the trail gets on the trail. -/
theorem mem_of_pending (walk : Walk g target pending visited trail keys) {id : Nat}
    (member : id ∈ pending) : id ∈ trail := by
  have counted := walk.count_trail id
  have positive := List.count_pos_iff.2 member
  exact List.count_pos_iff.1 (by omega)

theorem mem_of_inside (walk : Walk g target pending visited trail keys) {outer id : Nat}
    (member : outer ∈ trail) (enters : g.EntersBut visited target outer)
    (within : id ∈ g.inside outer) : id ∈ trail := by
  have counted := walk.count_trail id
  cases reference : (g.kind outer).isReference with
  | false =>
    rw [inside, if_neg (by simp [reference])] at within
    have opened : outer ∈ trail.filter (g.Opens target) :=
      List.mem_filter.2 ⟨member, decide_eq_true ⟨enters.1, reference⟩⟩
    have positive := List.count_pos_iff.2 (List.mem_flatMap.2 ⟨outer, opened, within⟩)
    exact List.count_pos_iff.1 (by omega)
  | true =>
    rw [inside, if_pos reference, deref] at within
    split at within
    · rename_i key named
      have fresh : key ∉ visited := fun old => enters.2 reference key old named
      have expanded := (walk.expands member enters.1 reference named).resolve_right fresh
      have positive := List.count_pos_iff.2 (List.mem_flatMap.2 ⟨key, expanded, within⟩)
      exact List.count_pos_iff.1 (by omega)
    · cases within

/-- What gets on the trail is reached from what is pending, past no key that was visited before. -/
theorem reaches (walk : Walk g target pending visited trail keys) {barred : List DefineKey}
    {tops : List Nat} (barring : ∀ key ∈ barred, key ∈ visited)
    (start : ∀ id ∈ pending, g.Reaches (g.EntersBut barred target) tops id) :
    ∀ id ∈ trail, g.Reaches (g.EntersBut barred target) tops id := by
  induction walk with
  | done => exact nofun
  | pass _ _ ih =>
    have head := start _ (List.mem_cons_self ..)
    have tail := ih barring fun id member => start id (List.mem_cons_of_mem _ member)
    exact List.forall_mem_cons.2 ⟨head, tail⟩
  | expand enters reference named fresh _ ih =>
    have head := start _ (List.mem_cons_self ..)
    have further := ih fun key member => List.mem_cons_of_mem _ (barring key member)
    refine List.forall_mem_cons.2 ⟨head, further fun id member => ?_⟩
    rcases List.mem_append.1 member with new | old
    · refine .step head ⟨enters, fun _ key old same => ?_⟩ ?_
      · rw [named] at same
        cases same
        exact fresh (barring _ old)
      · rw [inside, if_pos reference, deref, named]
        exact new
    · exact start id (List.mem_cons_of_mem _ old)
  | enter opens _ ih =>
    have head := start _ (List.mem_cons_self ..)
    refine List.forall_mem_cons.2 ⟨head, ih barring fun id member => ?_⟩
    rcases List.mem_append.1 member with new | old
    · refine .step head ⟨opens.1, fun reference => ?_⟩ ?_
      · rw [opens.2] at reference
        cases reference
      · rw [inside, if_neg (by simp [opens.2])]
        exact new
    · exact start id (List.mem_cons_of_mem _ old)

/-- A walk takes exactly the nodes that are reached past no key that was visited before. -/
theorem mem_trail_iff_reaches (walk : Walk g target pending visited trail keys) {id : Nat} :
    id ∈ trail ↔ g.Reaches (g.EntersBut visited target) pending id := by
  constructor
  · exact walk.reaches (fun _ old => old) (fun _ member => .top member) id
  · intro path
    exact path.mem_of_closed (fun _ => walk.mem_of_pending)
      (fun _ member enters _ => walk.mem_of_inside member enters)

end Walk

/-- The walk of a whole search below a node takes exactly the nodes reached from its content. -/
theorem Walk.mem_trail_iff {start id : Nat} {trail : List Nat} {keys : List DefineKey}
    (walk : Walk g target (g.contentChildren start) [] trail keys) :
    id ∈ trail ↔ g.Reaches (g.Enters target) (g.contentChildren start) id := by
  rw [walk.mem_trail_iff_reaches, entersBut_nil]

/-- A search finds the nodes of the kind that paths of expansion lead to. -/
theorem mem_descend_iff {start id : Nat} :
    id ∈ g.descend start target ↔
      g.kind id = target ∧ g.Reaches (g.Enters target) (g.contentChildren start) id := by
  obtain ⟨trail, keys, walk, same⟩ := exists_walk g target (g.contentChildren start) []
  rw [descend, findings, same, List.mem_filter, walk.mem_trail_iff, decide_eq_true_eq, and_comm]

end RelaxDoc.Grammar
