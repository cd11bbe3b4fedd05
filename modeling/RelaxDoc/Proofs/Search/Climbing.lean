import RelaxDoc.Proofs.Grammar.Keys
import RelaxDoc.Search.Climb

/-! Climbs, and searches upwards: a search says yes exactly if a climb comes to the kind it looks
for, although it goes on to the references to each key only once. -/
namespace RelaxDoc.Grammar

variable {g : Grammar} {wrapper stop : Kind}

/-- A definition and a reference to its key. -/
def ForksTo (g : Grammar) (define reference : Nat) : Prop :=
  g.kind define = .define ∧
    ∃ key, g.defineKey? define = some key ∧ reference ∈ g.referencesTo key

/-- Where a search upwards goes on to: the parent of a node, and for a definition the references to
its key. -/
def Above (g : Grammar) (inner outer : Nat) : Prop :=
  g.parent? inner = some outer ∨ g.ForksTo inner outer

/-- A climb from one of `tops`: no step goes on from a node of kind `stop`. -/
inductive Climbs (g : Grammar) (stop : Kind) (tops : List Nat) : Nat → Prop where
  | top {id : Nat} (member : id ∈ tops) : Climbs g stop tops id
  | step {inner outer : Nat} (path : Climbs g stop tops inner) (passes : g.kind inner ≠ stop)
      (above : g.Above inner outer) : Climbs g stop tops outer

theorem Climbs.trans {tops middle : List Nat} {id : Nat} (path : g.Climbs stop middle id)
    (before : ∀ top ∈ middle, g.Climbs stop tops top) : g.Climbs stop tops id := by
  induction path with
  | top member => exact before _ member
  | step _ passes above ih => exact .step ih passes above

theorem Climbs.mem_of_closed {tops closed : List Nat} {id : Nat} (path : g.Climbs stop tops id)
    (start : ∀ top ∈ tops, top ∈ closed)
    (steps : ∀ inner ∈ closed, g.kind inner ≠ stop →
      ∀ outer, g.Above inner outer → outer ∈ closed) : id ∈ closed := by
  induction path with
  | top member => exact start _ member
  | step _ passes above ih => exact steps _ ih passes _ above

/-- A search upwards that starts from pending nodes with the references to `visited` pending
already, and what it says in the end. -/
inductive Ascent (g : Grammar) (wrapper stop : Kind) :
    (pending : List Nat) → (visited : List DefineKey) → (found : Bool) → Prop where
  | done : Ascent g wrapper stop [] visited false
  | halt {id : Nat} (stops : g.kind id = stop) (ascent : Ascent g wrapper stop rest visited found) :
      Ascent g wrapper stop (id :: rest) visited found
  | arrive {id : Nat} (passes : g.kind id ≠ stop) (arrives : g.kind id = wrapper) :
      Ascent g wrapper stop (id :: rest) visited true
  | rise {id : Nat} (passes : g.kind id ≠ stop) (other : g.kind id ≠ wrapper)
      (idle : g.kind id = .define → ∀ key, g.defineKey? id = some key → key ∈ visited)
      (ascent : Ascent g wrapper stop (rest ++ (g.parent? id).toList) visited found) :
      Ascent g wrapper stop (id :: rest) visited found
  | fork {id : Nat} (passes : g.kind id ≠ stop) (other : g.kind id ≠ wrapper)
      (define : g.kind id = .define) (named : g.defineKey? id = some key)
      (ascent : Ascent g wrapper stop (rest ++ g.referencesTo key ++ (g.parent? id).toList)
        (key :: visited) found) : Ascent g wrapper stop (id :: rest) visited found

/-- Every search upwards is an ascent. -/
theorem ascent_searchAbove (g : Grammar) (wrapper stop : Kind) (pending : List Nat)
    (visited : List DefineKey) :
    Ascent g wrapper stop pending visited (g.searchAbove wrapper stop pending visited) := by
  induction pending, visited using searchAbove.induct g wrapper stop with
  | case1 visited => rw [searchAbove]; exact .done
  | case2 visited id rest _ stops ih =>
    rw [searchAbove, if_pos stops]
    exact .halt stops ih
  | case3 visited id rest _ passes arrives =>
    rw [searchAbove, if_neg passes, if_pos arrives]
    exact .arrive passes arrives
  | case4 visited id rest _ passes other keyless ih =>
    rw [searchAbove, if_neg passes, if_neg other]
    have unnamed : (if g.kind id = .define then g.defineKey? id else none) = none := by
      simpa using keyless
    simp only [unnamed]
    refine .rise passes other (fun define key named => ?_) ih
    rw [if_pos define, named] at unnamed
    cases unnamed
  | case5 visited id rest _ passes other key keyed old ih =>
    rw [searchAbove, if_neg passes, if_neg other]
    have known : (if g.kind id = .define then g.defineKey? id else none) = some key := by
      simpa using keyed
    simp only [known, old, ↓reduceDIte]
    refine .rise passes other (fun define again named => ?_) ih
    rw [if_pos define, named] at known
    cases known
    simpa using old
  | case6 visited id rest _ passes other key keyed fresh _ unused ih =>
    rw [searchAbove, if_neg passes, if_neg other]
    have known : (if g.kind id = .define then g.defineKey? id else none) = some key := by
      simpa using keyed
    simp only [known, fresh, Bool.false_eq_true, ↓reduceDIte]
    split at known
    · rename_i define
      refine .fork passes other define known ?_
      split
      · simpa [unused] using ih
      · rename_i found
        rw [unused] at found
        cases found
    · cases known
  | case7 visited id rest _ passes other key keyed fresh _ first more used _ _ _ ih =>
    rw [searchAbove, if_neg passes, if_neg other]
    have known : (if g.kind id = .define then g.defineKey? id else none) = some key := by
      simpa using keyed
    simp only [known, fresh, Bool.false_eq_true, ↓reduceDIte]
    split at known
    · rename_i define
      refine .fork passes other define known ?_
      split
      · rename_i found
        rw [used] at found
        cases found
      · rename_i found
        rw [used] at found
        cases found
        simpa [used] using ih
    · cases known

/-- Nodes that hold all that a search without success goes on to, the references to `visited`
aside. -/
structure Barren (g : Grammar) (wrapper stop : Kind) (visited : List DefineKey)
    (trail : List Nat) : Prop where
  other : ∀ id ∈ trail, g.kind id ≠ stop → g.kind id ≠ wrapper
  parent : ∀ id ∈ trail, g.kind id ≠ stop → ∀ outer, g.parent? id = some outer → outer ∈ trail
  references : ∀ id ∈ trail, g.kind id ≠ stop → g.kind id = .define → ∀ key,
    g.defineKey? id = some key → key ∈ visited ∨ ∀ outer ∈ g.referencesTo key, outer ∈ trail

namespace Barren

variable {visited : List DefineKey} {trail : List Nat}

theorem nil : Barren g wrapper stop visited [] := ⟨nofun, nofun, nofun⟩

/-- One more node, if where a search goes on to from it is there already. -/
theorem cons (barren : Barren g wrapper stop visited trail) {id : Nat}
    (other : g.kind id ≠ stop → g.kind id ≠ wrapper)
    (parent : g.kind id ≠ stop → ∀ outer, g.parent? id = some outer → outer ∈ trail)
    (references : g.kind id ≠ stop → g.kind id = .define → ∀ key, g.defineKey? id = some key →
      key ∈ visited ∨ ∀ outer ∈ g.referencesTo key, outer ∈ trail) :
    Barren g wrapper stop visited (id :: trail) where
  other := List.forall_mem_cons.2 ⟨other, barren.other⟩
  parent := by
    refine List.forall_mem_cons.2 ⟨?_, ?_⟩
    · intro passes outer above
      exact List.mem_cons_of_mem _ (parent passes outer above)
    · intro one member passes outer above
      exact List.mem_cons_of_mem _ (barren.parent one member passes outer above)
  references := by
    refine List.forall_mem_cons.2 ⟨?_, ?_⟩
    · intro passes define key named
      exact (references passes define key named).imp_right fun all outer member =>
        List.mem_cons_of_mem _ (all outer member)
    · intro one member passes define key named
      have known := barren.references one member passes define key named
      exact known.imp_right fun all outer member => List.mem_cons_of_mem _ (all outer member)

/-- A key need not be put aside if the references to it are there. -/
theorem release {key : DefineKey} (barren : Barren g wrapper stop (key :: visited) trail)
    (all : ∀ outer ∈ g.referencesTo key, outer ∈ trail) : Barren g wrapper stop visited trail where
  other := barren.other
  parent := barren.parent
  references id member passes define other named := by
    rcases barren.references id member passes define other named with known | there
    · rcases List.mem_cons.1 known with rfl | old
      · exact .inr all
      · exact .inl old
    · exact .inr there

/-- With nothing put aside, climbs stay among such nodes. -/
theorem mem_of_climbs (barren : Barren g wrapper stop [] trail) {tops : List Nat} {id : Nat}
    (path : g.Climbs stop tops id) (start : ∀ top ∈ tops, top ∈ trail) : id ∈ trail := by
  refine path.mem_of_closed start fun inner member passes outer above => ?_
  rcases above with parent | ⟨define, key, named, reference⟩
  · exact barren.parent inner member passes outer parent
  · have there := barren.references inner member passes define key named
    exact there.resolve_left List.not_mem_nil outer reference

end Barren

/-- Pending nodes from which nothing is found: they are among nodes that hold all that a search goes
on to. -/
def Settled (g : Grammar) (wrapper stop : Kind) (pending : List Nat)
    (visited : List DefineKey) : Prop :=
  ∃ trail, (∀ id ∈ pending, id ∈ trail) ∧ Barren g wrapper stop visited trail

namespace Settled

variable {rest others : List Nat} {visited : List DefineKey} {key : DefineKey} {id : Nat}

theorem nil : Settled g wrapper stop [] visited := ⟨[], nofun, .nil⟩

theorem subset (settled : Settled g wrapper stop rest visited) (fewer : ∀ id ∈ others, id ∈ rest) :
    Settled g wrapper stop others visited := by
  obtain ⟨trail, holds, barren⟩ := settled
  exact ⟨trail, fun one member => holds one (fewer one member), barren⟩

theorem halt (settled : Settled g wrapper stop rest visited) (stops : g.kind id = stop) :
    Settled g wrapper stop (id :: rest) visited := by
  obtain ⟨trail, holds, barren⟩ := settled
  refine ⟨id :: trail, List.forall_mem_cons.2 ⟨List.mem_cons_self .., ?_⟩, ?_⟩
  · exact fun one member => List.mem_cons_of_mem _ (holds one member)
  · exact barren.cons (absurd stops) (absurd stops) (absurd stops)

theorem rise (settled : Settled g wrapper stop (rest ++ (g.parent? id).toList) visited)
    (other : g.kind id ≠ wrapper)
    (idle : g.kind id = .define → ∀ key, g.defineKey? id = some key → key ∈ visited) :
    Settled g wrapper stop (id :: rest) visited := by
  obtain ⟨trail, holds, barren⟩ := settled
  refine ⟨id :: trail, List.forall_mem_cons.2 ⟨List.mem_cons_self .., ?_⟩, ?_⟩
  · exact fun one member => List.mem_cons_of_mem _ (holds one (List.mem_append_left _ member))
  · refine barren.cons (fun _ => other) (fun _ outer above => ?_) (fun _ define key named => ?_)
    · exact holds outer (List.mem_append_right _ (Option.mem_toList.2 above))
    · exact .inl (idle define key named)

theorem fork (settled : Settled g wrapper stop
      (rest ++ g.referencesTo key ++ (g.parent? id).toList) (key :: visited))
    (other : g.kind id ≠ wrapper) (named : g.defineKey? id = some key) :
    Settled g wrapper stop (id :: rest) visited := by
  obtain ⟨trail, holds, barren⟩ := settled
  -- The references to the key were pending, so they are there and the key is not put aside.
  have references : ∀ outer ∈ g.referencesTo key, outer ∈ trail := fun outer member =>
    holds outer (List.mem_append_left _ (List.mem_append_right _ member))
  refine ⟨id :: trail, List.forall_mem_cons.2 ⟨List.mem_cons_self .., fun one member => ?_⟩, ?_⟩
  · exact List.mem_cons_of_mem _
      (holds one (List.mem_append_left _ (List.mem_append_left _ member)))
  · refine (barren.release references).cons (fun _ => other) (fun _ outer above => ?_)
      (fun _ _ again same => .inr ?_)
    · exact holds outer (List.mem_append_right _ (Option.mem_toList.2 above))
    · rw [named] at same
      cases same
      exact references

/-- Nothing is found on climbs from such nodes, if no key is put aside. -/
theorem not_wrapper (settled : Settled g wrapper stop rest []) (path : g.Climbs stop rest id)
    (passes : g.kind id ≠ stop) : g.kind id ≠ wrapper := by
  obtain ⟨trail, holds, barren⟩ := settled
  exact barren.other id (barren.mem_of_climbs path holds) passes

end Settled

section Tops

variable {rest : List Nat} {key : DefineKey} {id : Nat}

theorem climbs_of_rise (passes : g.kind id ≠ stop) :
    ∀ top ∈ rest ++ (g.parent? id).toList, g.Climbs stop (id :: rest) top := by
  intro top member
  rcases List.mem_append.1 member with old | parent
  · exact .top (List.mem_cons_of_mem _ old)
  · exact .step (.top (List.mem_cons_self ..)) passes (.inl (Option.mem_toList.1 parent))

theorem climbs_of_fork (passes : g.kind id ≠ stop) (define : g.kind id = .define)
    (named : g.defineKey? id = some key) :
    ∀ top ∈ rest ++ g.referencesTo key ++ (g.parent? id).toList,
      g.Climbs stop (id :: rest) top := by
  intro top member
  rcases List.mem_append.1 member with earlier | parent
  · rcases List.mem_append.1 earlier with old | reference
    · exact .top (List.mem_cons_of_mem _ old)
    · exact .step (.top (List.mem_cons_self ..)) passes (.inr ⟨define, key, named, reference⟩)
  · exact .step (.top (List.mem_cons_self ..)) passes (.inl (Option.mem_toList.1 parent))

end Tops

namespace Ascent

variable {pending : List Nat} {visited : List DefineKey} {found : Bool}

/-- A search that says yes comes to the kind it looks for. -/
theorem exists_climb (ascent : Ascent g wrapper stop pending visited found) (yes : found = true) :
    ∃ id, g.Climbs stop pending id ∧ g.kind id ≠ stop ∧ g.kind id = wrapper := by
  induction ascent with
  | done => cases yes
  | halt _ _ ih =>
    obtain ⟨id, path, meets⟩ := ih yes
    exact ⟨id, path.trans fun _ member => .top (List.mem_cons_of_mem _ member), meets⟩
  | arrive passes arrives => exact ⟨_, .top (List.mem_cons_self ..), passes, arrives⟩
  | rise passes _ _ _ ih =>
    obtain ⟨id, path, meets⟩ := ih yes
    exact ⟨id, path.trans (climbs_of_rise passes), meets⟩
  | fork passes _ define named _ ih =>
    obtain ⟨id, path, meets⟩ := ih yes
    exact ⟨id, path.trans (climbs_of_fork passes define named), meets⟩

/-- A search that says no has gone on to all it can go on to. -/
theorem settled (ascent : Ascent g wrapper stop pending visited found) (no : found = false) :
    Settled g wrapper stop pending visited := by
  induction ascent with
  | done => exact .nil
  | halt stops _ ih => exact (ih no).halt stops
  | arrive => cases no
  | rise _ other idle _ ih => exact (ih no).rise other idle
  | fork _ other _ named _ ih => exact (ih no).fork other named

end Ascent

/-- A search upwards says yes exactly if a climb from the parent comes to the kind it looks for. -/
theorem climb_eq_true_iff {id : Nat} : g.climb id wrapper stop = true ↔
    ∃ outer, g.Climbs stop (g.parent? id).toList outer ∧ g.kind outer ≠ stop ∧
      g.kind outer = wrapper := by
  have ascent := g.ascent_searchAbove wrapper stop (g.parent? id).toList []
  constructor
  · intro found
    exact ascent.exists_climb found
  · intro ⟨outer, path, passes, arrives⟩
    refine eq_true_of_ne_false fun missing => ?_
    exact (ascent.settled missing).not_wrapper path passes arrives

end RelaxDoc.Grammar
