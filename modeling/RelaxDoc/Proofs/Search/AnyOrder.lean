import RelaxDoc.Proofs.Record.Use
import Mathlib.Logic.Relation

/-! Searches upwards in any order. Whichever of its pending nodes a search looks at next, and in
whatever order the references to a key are kept, it comes to an end, and it says yes exactly if a
climb past no node of the one kind ends at a node of the other. -/
namespace RelaxDoc

theorem Search.pendingAbove_perm {pending others : List Nat} (same : pending.Perm others) :
    pendingAbove pending = pendingAbove others := by
  induction same with
  | nil => rfl
  | cons id _ ih => rw [pendingAbove_cons, pendingAbove_cons, ih]
  | swap id other rest => simp only [pendingAbove_cons, Nat.add_left_comm]
  | trans _ _ first second => exact first.trans second

namespace Grammar

/-- Where a search upwards stands: the nodes that it has yet to look at, and the keys to whose
references it went on. -/
structure Quest where
  pending : List Nat
  visited : List DefineKey

variable {g : Grammar} {wrapper stop : Kind} {stored : DefineKey → List Nat}
  {quest next last : Quest} {found : Bool}

namespace Quest

/-- A search looks at any one of its pending nodes, and has the references to each key in the order
of `stored`. -/
inductive Advances (g : Grammar) (wrapper stop : Kind) (stored : DefineKey → List Nat) :
    Quest → Quest → Prop where
  | halt {pending rest : List Nat} {visited : List DefineKey} {id : Nat}
      (among : pending.Perm (id :: rest)) (stops : g.kind id = stop) :
      Advances g wrapper stop stored ⟨pending, visited⟩ ⟨rest, visited⟩
  | rise {pending rest : List Nat} {visited : List DefineKey} {id : Nat}
      (among : pending.Perm (id :: rest)) (passes : g.kind id ≠ stop) (other : g.kind id ≠ wrapper)
      (idle : g.kind id = .define → ∀ key, g.defineKey? id = some key → key ∈ visited) :
      Advances g wrapper stop stored ⟨pending, visited⟩ ⟨rest ++ (g.parent? id).toList, visited⟩
  | fork {pending rest : List Nat} {visited : List DefineKey} {key : DefineKey} {id : Nat}
      (among : pending.Perm (id :: rest)) (passes : g.kind id ≠ stop)
      (other : g.kind id ≠ wrapper) (define : g.kind id = .define)
      (named : g.defineKey? id = some key) (fresh : key ∉ visited) :
      Advances g wrapper stop stored ⟨pending, visited⟩
        ⟨rest ++ stored key ++ (g.parent? id).toList, key :: visited⟩

/-- A search says no when nothing is pending, and yes when it looks at a node of the kind. -/
inductive Answers (g : Grammar) (wrapper stop : Kind) : Quest → Bool → Prop where
  | no {visited : List DefineKey} : Answers g wrapper stop ⟨[], visited⟩ false
  | yes {pending : List Nat} {visited : List DefineKey} {id : Nat} (member : id ∈ pending)
      (passes : g.kind id ≠ stop) (arrives : g.kind id = wrapper) :
      Answers g wrapper stop ⟨pending, visited⟩ true

/-- The search from a node. -/
def start (g : Grammar) (id : Nat) : Quest := ⟨(g.parent? id).toList, []⟩

/-- A search that does not answer yet goes on. -/
theorem exists_answers_or_advances (g : Grammar) (wrapper stop : Kind)
    (stored : DefineKey → List Nat) (quest : Quest) :
    (∃ found, Answers g wrapper stop quest found) ∨
      ∃ next, Advances g wrapper stop stored quest next := by
  obtain ⟨pending, visited⟩ := quest
  cases pending with
  | nil => exact .inl ⟨false, .no⟩
  | cons id rest =>
    by_cases stops : g.kind id = stop
    · exact .inr ⟨_, .halt (.refl _) stops⟩
    by_cases arrives : g.kind id = wrapper
    · exact .inl ⟨true, .yes (List.mem_cons_self ..) stops arrives⟩
    by_cases idle : g.kind id = .define → ∀ key, g.defineKey? id = some key → key ∈ visited
    · exact .inr ⟨_, .rise (.refl _) stops arrives idle⟩
    · push Not at idle
      obtain ⟨define, key, named, fresh⟩ := idle
      exact .inr ⟨_, .fork (.refl _) stops arrives define named fresh⟩

/-- What drops with every step: the keys that are left, and for the same keys the weight of what is
pending. -/
def weight (g : Grammar) (quest : Quest) : Nat × Nat :=
  (Search.unvisited g.table.references quest.visited, Search.pendingAbove quest.pending)

section Stored

variable (same : ∀ key, (stored key).Perm (g.referencesTo key))

include same

theorem Advances.weight_lt (advances : Advances g wrapper stop stored quest next) :
    Prod.Lex (· < ·) (· < ·) (next.weight g) (quest.weight g) := by
  rw [Prod.lex_def]
  cases advances with
  | @halt pending rest visited id among stops =>
    refine .inr ⟨rfl, ?_⟩
    simp only [weight, Search.pendingAbove_perm among, Search.pendingAbove_cons]
    omega
  | @rise pending rest visited id among passes other idle =>
    have parents := Search.parents_lt_above g.toArena id
    refine .inr ⟨rfl, ?_⟩
    simp only [weight, Search.pendingAbove_perm among, Search.pendingAbove_cons,
      Search.pendingAbove_append]
    omega
  | @fork pending rest visited key id among passes other define named fresh =>
    have parents := Search.parents_lt_above g.toArena id
    cases used : g.referencesTo key with
    | nil =>
      -- A key that nothing refers to takes no part in the measure, but nothing is added either.
      have none : stored key = [] := List.Perm.eq_nil (used ▸ same key)
      have fewer := Search.unvisited_cons_le g.table.references visited key
      rcases Nat.lt_or_eq_of_le fewer with less | equal
      · exact .inl less
      · refine .inr ⟨equal, ?_⟩
        simp only [weight, Search.pendingAbove_perm among, none, Search.pendingAbove_append,
          Search.pendingAbove]
        omega
    | cons first more =>
      have member : first ∈ g.referencesTo key := used ▸ List.mem_cons_self ..
      exact .inl (Search.unvisited_cons_lt (mem_references_of_mem_referencesTo member)
        (by simpa using fresh))

/-- No search goes on forever. -/
theorem wellFounded_advances :
    WellFounded fun next quest => Advances g wrapper stop stored quest next :=
  Subrelation.wf (Advances.weight_lt same)
    (InvImage.wf (weight g) (Prod.lex Nat.lt_wfRel Nat.lt_wfRel).wf)

/-- What a search looks at later is where climbs from what is pending come to. -/
theorem Advances.climbs (advances : Advances g wrapper stop stored quest next) :
    ∀ top ∈ next.pending, g.Climbs stop quest.pending top := by
  intro top member
  cases advances with
  | halt among _ => exact .top (among.mem_iff.2 (List.mem_cons_of_mem _ member))
  | rise among passes _ _ =>
    exact (climbs_of_rise passes top member).trans fun one first => .top (among.mem_iff.2 first)
  | @fork _ rest _ key id among passes _ define named _ =>
    have listed : top ∈ rest ++ g.referencesTo key ++ (g.parent? id).toList := by
      simpa [(same key).mem_iff] using member
    exact (climbs_of_fork passes define named top listed).trans fun one first =>
      .top (among.mem_iff.2 first)

/-- If nothing is found from what is pending later, nothing is from what is pending. -/
theorem Advances.settled (advances : Advances g wrapper stop stored quest next)
    (later : Settled g wrapper stop next.pending next.visited) :
    Settled g wrapper stop quest.pending quest.visited := by
  cases advances with
  | halt among stops => exact (later.halt stops).subset fun _ => among.mem_iff.1
  | rise among _ other idle => exact (later.rise other idle).subset fun _ => among.mem_iff.1
  | @fork _ rest _ key id among _ other _ named _ =>
    have listed : Settled g wrapper stop (rest ++ g.referencesTo key ++ (g.parent? id).toList) _ :=
      later.subset fun one member => by simpa [(same key).mem_iff] using member
    exact (listed.fork other named).subset fun _ => among.mem_iff.1

theorem climbs_of_run (run : Relation.ReflTransGen (Advances g wrapper stop stored) quest last) :
    ∀ top ∈ last.pending, g.Climbs stop quest.pending top := by
  induction run with
  | refl => exact fun _ member => .top member
  | tail _ advances ih => exact fun top member => (advances.climbs same top member).trans ih

theorem settled_of_run (run : Relation.ReflTransGen (Advances g wrapper stop stored) quest last)
    (later : Settled g wrapper stop last.pending last.visited) :
    Settled g wrapper stop quest.pending quest.visited := by
  induction run with
  | refl => exact later
  | tail _ advances ih => exact ih (advances.settled same later)

/-- What a search says when it comes to its end. -/
theorem answer_iff (run : Relation.ReflTransGen (Advances g wrapper stop stored) quest last)
    (new : quest.visited = []) (answers : Answers g wrapper stop last found) :
    found = true ↔ ∃ outer, g.Climbs stop quest.pending outer ∧ g.kind outer ≠ stop ∧
      g.kind outer = wrapper := by
  cases answers with
  | no =>
    have settled := settled_of_run same run .nil
    rw [new] at settled
    refine iff_of_false Bool.false_ne_true ?_
    rintro ⟨outer, path, passes, arrives⟩
    exact settled.not_wrapper path passes arrives
  | yes member passes arrives =>
    exact iff_of_true rfl ⟨_, climbs_of_run same run _ member, passes, arrives⟩

end Stored

end Quest

/-- Where a climb goes on to: from a node to its parent, and from a definition to the references by
its key. -/
def Rises (g : Grammar) (inner outer : Nat) : Prop :=
  g.parent? inner = some outer ∨
    (g.kind inner = .define ∧ (g.kind outer).isReference = true ∧
      ∃ key, g.defineKey? inner = some key ∧ g.defineKey? outer = some key)

theorem above_iff_rises {inner outer : Nat} : g.Above inner outer ↔ g.Rises inner outer := by
  simp only [Above, ForksTo, Rises, mem_referencesTo]
  refine or_congr_right (and_congr_right fun _ => ?_)
  constructor
  · rintro ⟨key, named, refers, also⟩
    exact ⟨refers, key, named, also⟩
  · rintro ⟨refers, key, named, also⟩
    exact ⟨key, named, refers, also⟩

/-- The nodes of a climb from the parent of a node to one of kind `wrapper`, none of kind `stop`. -/
structure IsClimb (g : Grammar) (wrapper stop : Kind) (id : Nat) (path : List Nat) : Prop where
  first : path.head? = g.parent? id
  rises : path.IsChain g.Rises
  passes : ∀ node ∈ path, g.kind node ≠ stop
  last : path.getLast?.map g.kind = some wrapper

/-- A climb that passes its last node too is a list of nodes. -/
theorem Climbs.exists_path {id outer : Nat} (climbs : g.Climbs stop (g.parent? id).toList outer)
    (passes : g.kind outer ≠ stop) : ∃ path : List Nat, path.head? = g.parent? id ∧
      path.IsChain g.Rises ∧ (∀ node ∈ path, g.kind node ≠ stop) ∧ path.getLast? = some outer := by
  induction climbs with
  | top member =>
    exact ⟨[_], (Option.mem_toList.1 member).symm, .singleton _, by simpa using passes, rfl⟩
  | @step inner outer _ before above ih =>
    obtain ⟨path, first, rises, all, last⟩ := ih before
    refine ⟨path ++ [outer], ?_, ?_, ?_, List.getLast?_concat⟩
    · rw [List.head?_append_of_ne_nil _ (by rintro rfl; cases last), first]
    · refine List.isChain_append.2 ⟨rises, .singleton _, ?_⟩
      rw [last]
      rintro _ ⟨⟩ _ ⟨⟩
      exact above_iff_rises.1 above
    · intro node member
      rcases List.mem_append.1 member with earlier | here
      · exact all node earlier
      · rwa [List.mem_singleton.1 here]

/-- From a list of nodes that each lead to the next, the last is climbed to. -/
theorem climbs_of_path {path tops : List Nat} {outer : Nat} (rises : path.IsChain g.Rises)
    (passes : ∀ node ∈ path, g.kind node ≠ stop) (first : ∀ top ∈ path.head?, top ∈ tops)
    (last : path.getLast? = some outer) : g.Climbs stop tops outer := by
  induction path generalizing tops with
  | nil => cases last
  | cons id rest ih =>
    have top : g.Climbs stop tops id := .top (first id rfl)
    cases rest with
    | nil =>
      cases last
      exact top
    | cons second more =>
      obtain ⟨rise, later⟩ := List.isChain_cons_cons.1 rises
      rw [List.getLast?_cons_cons] at last
      have further : g.Climbs stop [second] outer :=
        ih later (fun node member => passes node (List.mem_cons_of_mem _ member)) (by simp) last
      refine further.trans fun one member => ?_
      rw [List.mem_singleton.1 member]
      exact .step top (passes id (List.mem_cons_self ..)) (above_iff_rises.2 rise)

theorem exists_climbs_iff_isClimb {id : Nat} :
    (∃ outer, g.Climbs stop (g.parent? id).toList outer ∧ g.kind outer ≠ stop ∧
      g.kind outer = wrapper) ↔ ∃ path, g.IsClimb wrapper stop id path := by
  constructor
  · rintro ⟨outer, climbs, passes, rfl⟩
    obtain ⟨path, first, rises, all, last⟩ := climbs.exists_path passes
    exact ⟨path, first, rises, all, by rw [last]; rfl⟩
  · rintro ⟨path, isClimb⟩
    obtain ⟨outer, last, arrives⟩ := Option.map_eq_some_iff.1 isClimb.last
    refine ⟨outer, ?_, isClimb.passes outer (List.mem_of_getLast? last), arrives⟩
    refine climbs_of_path isClimb.rises isClimb.passes (fun top member => ?_) last
    rw [isClimb.first] at member
    exact Option.mem_toList.2 member

/-- A search upwards says yes exactly if there is a climb past no node of kind `stop` to one of kind
`wrapper`. So does every other search that looks at its pending nodes in any order, with the
references to each key kept in any order: it cannot go on forever, it goes on until it answers, and
its answer is the same. -/
theorem climb_in_any_order (g : Grammar) (id : Nat) (wrapper stop : Kind)
    {stored : DefineKey → List Nat} (same : ∀ key, (stored key).Perm (g.referencesTo key)) :
    (g.climb id wrapper stop = true ↔ ∃ path, g.IsClimb wrapper stop id path) ∧
    (WellFounded fun next quest => Quest.Advances g wrapper stop stored quest next) ∧
    ∀ last, Relation.ReflTransGen (Quest.Advances g wrapper stop stored) (.start g id) last →
      ((∃ found, Quest.Answers g wrapper stop last found) ∨
        ∃ next, Quest.Advances g wrapper stop stored last next) ∧
      ∀ found, Quest.Answers g wrapper stop last found → found = g.climb id wrapper stop := by
  refine ⟨climb_eq_true_iff.trans exists_climbs_iff_isClimb, Quest.wellFounded_advances same, ?_⟩
  intro last run
  refine ⟨Quest.exists_answers_or_advances .., fun found answers => ?_⟩
  rw [Bool.eq_iff_iff, Quest.answer_iff same run rfl answers, climb_eq_true_iff]
  rfl

/-- An attribute in a definition that two elements refer to, one of them inside of `optional`, with
the references looked at from the last to the first. -/
theorem shared_climb : (∀ key, (shared.referencesTo key).reverse.Perm (shared.referencesTo key)) ∧
    shared.IsClimb .optional .element 8 [7, 6, 5] ∧ shared.climb 8 .optional .element = true ∧
    ∀ last found, Relation.ReflTransGen (Quest.Advances shared .optional .element fun key =>
      (shared.referencesTo key).reverse) (.start shared 8) last →
        Quest.Answers shared .optional .element last found → found = true := by
  have same (key : DefineKey) : (shared.referencesTo key).reverse.Perm (shared.referencesTo key) :=
    List.reverse_perm _
  have climb : shared.IsClimb .optional .element 8 [7, 6, 5] := by
    refine ⟨by decide +kernel, ?_, by decide +kernel, by decide +kernel⟩
    refine .cons_cons (.inr ⟨by decide +kernel, by decide +kernel, ⟨some 0, "shared"⟩, ?_⟩)
      (.cons_cons (.inl (by decide +kernel)) (.singleton _))
    decide +kernel
  obtain ⟨found_iff, _, agree⟩ := climb_in_any_order shared 8 .optional .element same
  have yes := found_iff.2 ⟨_, climb⟩
  refine ⟨same, climb, yes, fun last found run answers => ?_⟩
  rw [(agree last run).2 found answers, yes]

end Grammar

end RelaxDoc
