import RelaxDoc.Proofs.Grammar.Addresses
import RelaxDoc.Proofs.Search.Unfolding

/-! All that content leads to, in the order of expansion. What a search for a kind finds first is the
first node of this kind that is met at all, so that searches for different kinds can be compared. -/
namespace RelaxDoc.Grammar

variable {g : Grammar} {target : Kind}

/-- Expansion goes on to what is inside a node unless this is an element or attribute. -/
def Passes (g : Grammar) (id : Nat) : Prop := g.kind id ≠ .element ∧ g.kind id ≠ .attr

theorem enters_element : g.Enters .element = g.Passes := by
  funext id
  exact propext ⟨And.right, fun passes => ⟨passes.1, passes⟩⟩

/-- Going through `pending` from left to right with `visited` expanded gathers the nodes of `met`, each
in front of what is inside of it, and has `after` expanded at the end. -/
inductive Gathers (g : Grammar) : (pending : List Nat) → (visited : List DefineKey) →
    (met : List Nat) → (after : List DefineKey) → Prop where
  | done : Gathers g [] visited [] visited
  /-- Elements and attributes are not entered. -/
  | boundary {id : Nat} (kind : g.kind id = .element ∨ g.kind id = .attr)
      (rest : Gathers g pending visited met after) : Gathers g (id :: pending) visited (id :: met) after
  /-- A reference without a name or by a key that was met before leads to nothing new. -/
  | again {id : Nat} (refers : (g.kind id).isReference = true)
      (old : ∀ key, g.defineKey? id = some key → key ∈ visited)
      (rest : Gathers g pending visited met after) : Gathers g (id :: pending) visited (id :: met) after
  /-- A reference by a new key leads to the children of its definitions. -/
  | expand {id : Nat} (refers : (g.kind id).isReference = true)
      (named : g.defineKey? id = some key) (fresh : key ∉ visited)
      (within : Gathers g ((g.definesOf key).flatMap g.children) (key :: visited) deeper between)
      (rest : Gathers g pending between met after) :
      Gathers g (id :: pending) visited (id :: (deeper ++ met)) after
  /-- Any other node leads to its children. -/
  | enter {id : Nat} (passes : g.Passes id) (plain : (g.kind id).isReference = false)
      (within : Gathers g (g.children id) visited deeper between)
      (rest : Gathers g pending between met after) :
      Gathers g (id :: pending) visited (id :: (deeper ++ met)) after

theorem ne_of_isReference {id : Nat} (refers : (g.kind id).isReference = true)
    (holds : target.holdsText = true) : g.kind id ≠ target := by
  rintro rfl
  cases kind : g.kind id <;> simp [kind, Kind.isReference, Kind.holdsText] at refers holds

namespace Gathers

variable {pending left right met : List Nat} {visited after : List DefineKey}

/-- A reference by a key that was met before leads to nothing but itself. -/
theorem known {id : Nat} {key : DefineKey} (refers : (g.kind id).isReference = true)
    (named : g.defineKey? id = some key) (old : key ∈ visited)
    (rest : g.Gathers pending visited met after) : g.Gathers (id :: pending) visited (id :: met) after := by
  refine .again refers (fun other same => ?_) rest
  cases named.symm.trans same
  exact old

/-- A node that holds text leads to nothing but itself. -/
theorem leaf (loaded : g.Loaded) {id : Nat} (holds : (g.kind id).holdsText = true)
    (rest : g.Gathers pending visited met after) : g.Gathers (id :: pending) visited (id :: met) after := by
  have passes : g.Passes id := by
    constructor <;> intro kind <;> rw [kind] at holds <;> cases holds
  have plain : (g.kind id).isReference = false := by
    cases kind : g.kind id <;> simp [kind, Kind.holdsText, Kind.isReference] at holds ⊢
  have inside : g.Gathers (g.children id) visited [] visited := by
    rw [loaded.children_of_holdsText holds]
    exact .done
  exact .enter passes plain inside rest

/-- Nodes in a row are gone through one part after the other. -/
theorem exists_of_append (gathers : g.Gathers (left ++ right) visited met after) :
    ∃ first between second, g.Gathers left visited first between ∧
      g.Gathers right between second after ∧ met = first ++ second := by
  induction left generalizing visited met with
  | nil => exact ⟨[], visited, met, .done, gathers, rfl⟩
  | cons id later ih =>
    cases gathers with
    | boundary kind rest =>
      obtain ⟨first, between, second, here, there, rfl⟩ := ih rest
      exact ⟨id :: first, between, second, .boundary kind here, there, rfl⟩
    | again refers old rest =>
      obtain ⟨first, between, second, here, there, rfl⟩ := ih rest
      exact ⟨id :: first, between, second, .again refers old here, there, rfl⟩
    | expand refers named fresh within rest =>
      obtain ⟨first, between, second, here, there, rfl⟩ := ih rest
      exact ⟨_, between, second, .expand refers named fresh within here, there,
        congrArg (id :: ·) (List.append_assoc ..).symm⟩
    | enter passes plain within rest =>
      obtain ⟨first, between, second, here, there, rfl⟩ := ih rest
      exact ⟨_, between, second, .enter passes plain within here, there,
        congrArg (id :: ·) (List.append_assoc ..).symm⟩

/-- The recursion takes the nodes in the order of a walk that keeps what is pending on a stack. -/
theorem exists_walk (gathers : g.Gathers pending visited met after) {later trail : List Nat}
    {keys : List DefineKey} (walk : Walk g .element later after trail keys) :
    ∃ more, Walk g .element (pending ++ later) visited (met ++ trail) more := by
  induction gathers generalizing later trail keys with
  | done => exact ⟨keys, walk⟩
  | boundary kind _ ih =>
    obtain ⟨more, walk⟩ := ih walk
    exact ⟨more, .pass (fun enters => absurd kind (not_or.2 enters.2)) walk⟩
  | again refers old _ ih =>
    obtain ⟨more, walk⟩ := ih walk
    exact ⟨more, .pass (fun _ => ⟨refers, old⟩) walk⟩
  | @expand _ _ deeper _ _ _ _ _ refers named fresh _ _ ihWithin ihRest =>
    obtain ⟨_, behind⟩ := ihRest walk
    obtain ⟨more, walk⟩ := ihWithin behind
    rw [← List.append_assoc deeper] at walk
    have inner := not_or.1 (not_boundary_of_isReference refers)
    exact ⟨_, .expand ⟨inner.1, inner⟩ refers named fresh walk⟩
  | @enter _ deeper _ _ _ _ _ passes plain _ _ ihWithin ihRest =>
    obtain ⟨_, behind⟩ := ihRest walk
    obtain ⟨more, walk⟩ := ihWithin behind
    rw [← List.append_assoc deeper] at walk
    exact ⟨more, .enter ⟨⟨passes.1, passes⟩, plain⟩ walk⟩

/-- What is met is what paths of expansion lead to. -/
theorem mem_iff {tops : List Nat} (gathers : g.Gathers tops [] met after) {id : Nat} :
    id ∈ met ↔ g.Reaches g.Passes tops id := by
  obtain ⟨keys, walk⟩ := gathers.exists_walk .done
  rw [List.append_nil, List.append_nil] at walk
  rw [walk.mem_trail_iff_reaches, entersBut_nil, enters_element]

/-- The first node that a search finds is the first of the kind that is met. -/
theorem head?_hits (gathers : g.Gathers pending visited met after) (target : Kind) (later : List Nat) :
    (g.hits target (pending ++ later) visited).head? =
      (met.find? fun id => g.kind id = target).or (g.hits target later after).head? := by
  induction gathers generalizing later with
  | done => rfl
  | @boundary pending visited met after id kind _ ih =>
    by_cases here : g.kind id = target
    · simp [hits_found here, here]
    · rw [List.cons_append, hits_boundary here kind, ih, List.find?_cons_of_neg (by simpa using here)]
  | @again pending visited met after id refers old _ ih =>
    by_cases here : g.kind id = target
    · simp [hits_found here, here]
    · rw [List.cons_append, hits_again here refers old, ih,
        List.find?_cons_of_neg (by simpa using here)]
  | @expand key visited deeper between pending met after id refers named fresh _ _ ihWithin ihRest =>
    by_cases here : g.kind id = target
    · simp [hits_found here, here]
    · rw [List.cons_append, hits_expand here refers named fresh, expansion, ihWithin, ihRest,
        List.find?_cons_of_neg (by simpa using here), List.find?_append, Option.or_assoc]
  | @enter visited deeper between pending met after id passes plain _ _ ihWithin ihRest =>
    by_cases here : g.kind id = target
    · simp [hits_found here, here]
    · rw [List.cons_append, hits_enter ⟨⟨here, passes⟩, plain⟩, ihWithin, ihRest,
        List.find?_cons_of_neg (by simpa using here), List.find?_append, Option.or_assoc]

theorem firstBelow?_eq {start : Nat} (gathers : g.Gathers (g.contentChildren start) [] met after)
    (target : Kind) : g.firstBelow? start target = met.find? fun id => g.kind id = target := by
  have first := gathers.head?_hits target []
  rw [List.append_nil] at first
  have none : g.hits target [] after = [] := by
    rw [hits, searchBelow]
    rfl
  rw [none, List.head?_nil, Option.or_none] at first
  exact first

/-- Nodes of a kind that holds text have no others in them, so a search for it finds all that are
met. -/
theorem unfolds (gathers : g.Gathers pending visited met after) (loaded : g.Loaded)
    (holds : target.holdsText = true) :
    g.Unfolds target pending visited (met.filter fun id => g.kind id = target) after := by
  induction gathers with
  | done => exact .done
  | @boundary pending visited met after id kind _ ih =>
    have other : g.kind id ≠ target := by
      rintro rfl
      rcases kind with kind | kind <;> rw [kind] at holds <;> cases holds
    rw [List.filter_cons_of_neg (by simpa using other)]
    exact .boundary other kind ih
  | @again pending visited met after id refers old _ ih =>
    have other := ne_of_isReference refers holds
    rw [List.filter_cons_of_neg (by simpa using other)]
    cases named : g.defineKey? id with
    | none => exact .unnamed other refers named ih
    | some key => exact .again other refers named (old key named) ih
  | @expand key visited deeper between pending met after id refers named fresh _ _ ihWithin ihRest =>
    have other := ne_of_isReference refers holds
    rw [List.filter_cons_of_neg (by simpa using other), List.filter_append]
    exact .expand other refers named fresh ihWithin ihRest
  | @enter visited deeper between pending met after id passes plain within _ ihWithin ihRest =>
    by_cases here : g.kind id = target
    · rw [loaded.children_of_holdsText (here ▸ holds)] at within
      cases within
      rw [List.filter_cons_of_pos (by simpa using here), List.nil_append]
      exact .hit here ihRest
    · rw [List.filter_cons_of_neg (by simpa using here), List.filter_append]
      exact .enter here passes.1 passes.2 plain ihWithin ihRest

end Gathers

/-- A walk that keeps what is pending on a stack takes the nodes in the order of the recursion. -/
theorem Walk.exists_gathers {pending trail : List Nat} {visited keys : List DefineKey}
    (walk : Walk g .element pending visited trail keys) :
    ∃ after, g.Gathers pending visited trail after := by
  induction walk with
  | done => exact ⟨_, .done⟩
  | @pass _ _ _ _ id idle _ ih =>
    obtain ⟨after, rest⟩ := ih
    by_cases boundary : g.kind id = .element ∨ g.kind id = .attr
    · exact ⟨after, .boundary boundary rest⟩
    · have passes := not_or.1 boundary
      obtain ⟨refers, old⟩ := idle ⟨passes.1, passes⟩
      exact ⟨after, .again refers old rest⟩
  | expand _ refers named fresh _ ih =>
    obtain ⟨after, gathers⟩ := ih
    obtain ⟨inner, between, met, within, rest, rfl⟩ := gathers.exists_of_append
    exact ⟨after, .expand refers named fresh within rest⟩
  | enter opens _ ih =>
    obtain ⟨after, gathers⟩ := ih
    obtain ⟨inner, between, met, within, rest, rfl⟩ := gathers.exists_of_append
    exact ⟨after, .enter opens.1.2 opens.2 within rest⟩

theorem exists_gathers (g : Grammar) (tops : List Nat) : ∃ met after, g.Gathers tops [] met after := by
  obtain ⟨trail, _, walk, _⟩ := exists_walk g .element tops []
  exact ⟨trail, walk.exists_gathers⟩

end RelaxDoc.Grammar
