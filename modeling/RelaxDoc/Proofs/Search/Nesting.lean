import RelaxDoc.Proofs.Search.Multiplicity

/-! Definitions inside of other patterns. A search goes into the definitions that it meets on the
way to children, as those of a grammar inside of an element, no matter whether a reference leads to
them. -/
namespace RelaxDoc.Grammar

variable {g : Grammar} {target : Kind} {start : Nat}

/-- A search goes on from a node other than a definition: the content of a definition is then got
at by reference alone. -/
def EntersReferred (g : Grammar) (target : Kind) (id : Nat) : Prop :=
  g.Enters target id ∧ g.kind id ≠ .define

instance (g : Grammar) (target : Kind) : DecidablePred (g.EntersReferred target) :=
  fun id => inferInstanceAs (Decidable (g.Enters target id ∧ g.kind id ≠ .define))

/-- A path avoids definitions, or there is a first one that it goes on from. -/
theorem Reaches.referred_or_first {tops : List Nat} {id : Nat}
    (path : g.Reaches (g.Enters target) tops id) :
    g.Reaches (g.EntersReferred target) tops id ∨
      ∃ define, g.kind define = .define ∧ g.Enters target define ∧
        g.Reaches (g.EntersReferred target) tops define ∧
        g.Reaches (g.Enters target) (g.children define) id := by
  induction path with
  | top member => exact .inl (.top member)
  | @step outer id _ enters member ih =>
    rcases ih with around | ⟨define, kind, entered, before, later⟩
    · by_cases kind : g.kind outer = .define
      · refine .inr ⟨outer, kind, enters, around, .top ?_⟩
        rwa [inside, if_neg (by rw [kind]; decide)] at member
      · exact .inl (.step around ⟨enters, kind⟩ member)
    · exact .inr ⟨define, kind, entered, before, .step later enters member⟩

theorem reaches_iff_referred_or_first {tops : List Nat} {id : Nat} :
    g.Reaches (g.Enters target) tops id ↔ g.Reaches (g.EntersReferred target) tops id ∨
      ∃ define, g.kind define = .define ∧ g.Enters target define ∧
        g.Reaches (g.EntersReferred target) tops define ∧
        g.Reaches (g.Enters target) (g.children define) id := by
  refine ⟨Reaches.referred_or_first, ?_⟩
  rintro (around | ⟨define, kind, enters, before, later⟩)
  · exact around.mono fun _ passes => passes.1
  · refine (before.mono fun _ passes => passes.1).extend enters ?_
    rwa [inside, if_neg (by rw [kind]; decide)]

/-- No definition stands inside of an element, an attribute or another definition. -/
def DefinitionsApart (g : Grammar) : Prop :=
  ∀ define, g.kind define = .define → ∀ outer ∈ g.ancestors define,
    g.kind outer ≠ .element ∧ g.kind outer ≠ .attr ∧ g.kind outer ≠ .define

instance (g : Grammar) : Decidable g.DefinitionsApart :=
  decidable_of_iff (∀ define ∈ g.ofKind .define, ∀ outer ∈ g.ancestors define,
      g.kind outer ≠ .element ∧ g.kind outer ≠ .attr ∧ g.kind outer ≠ .define)
    (forall_congr' fun _ => imp_congr_left (g.mem_ofKind (by decide)))

theorem Holds.owner_mem_ancestors (loaded : g.Loaded) {source : Source} {id : Nat}
    (holds : g.Holds target start source id) : source.owner start ∈ g.ancestors id :=
  (g.heldAlong_holds target start).owner_mem_ancestors loaded holds

/-- The owner of a source of an element or attribute: no such definition stands in it. -/
theorem HasSource.owner_kind {source : Source} (known : g.HasSource target start source)
    (boundary : g.kind start = .element ∨ g.kind start = .attr) :
    g.kind (source.owner start) = .element ∨ g.kind (source.owner start) = .attr ∨
      g.kind (source.owner start) = .define := by
  cases source with
  | start => exact boundary.imp_right .inl
  | definition id => exact .inr (.inr known.1)

/-- Where definitions stand apart, no source holds the definition of another one. -/
theorem DefinitionsApart.not_holds_owner (apart : g.DefinitionsApart) (loaded : g.Loaded)
    (boundary : g.kind start = .element ∨ g.kind start = .attr) {one other : Source}
    (known : g.HasSource target start one) (further : g.HasSource target start other)
    (opens : g.Opens target (one.owner start)) :
    ¬ g.Holds target start other (one.owner start) := by
  intro holds
  cases one with
  | start => exact boundary.elim opens.1.2.1 opens.1.2.2
  | definition define =>
    obtain ⟨element, attr, definition⟩ := apart define known.1 _ (holds.owner_mem_ancestors loaded)
    rcases further.owner_kind boundary with same | same | same
    · exact element same
    · exact attr same
    · exact definition same

theorem eq_of_owner_eq (boundary : g.kind start = .element ∨ g.kind start = .attr)
    {one other : Source} (known : g.HasSource target start one)
    (further : g.HasSource target start other) (same : one.owner start = other.owner start) :
    one = other := by
  have apart {source : Source} (known : g.HasSource target start source) :
      source ≠ .definition start := by
    rintro rfl
    simp [known.1] at boundary
  exact Source.eq_of_owner (apart known) (apart further) same

/-- Where definitions stand apart, the sources of a search from an element or attribute share
nothing. -/
theorem DefinitionsApart.heldOnce (apart : g.DefinitionsApart) (loaded : g.Loaded)
    (boundary : g.kind start = .element ∨ g.kind start = .attr) (id : Nat) :
    g.HeldOnce target start id := by
  intro one other known further holds
  -- Both sources are followed up the parents of the node, until it is at the top of one of them.
  induction holds with
  | @top id member =>
    intro also
    have above := loaded.mem_children_iff.1 (mem_children_of_mem_tops member)
    rcases (holds_iff loaded above).1 also with top | ⟨opens, deeper⟩
    · have owner := loaded.mem_children_iff.1 (mem_children_of_mem_tops top)
      rw [above] at owner
      exact eq_of_owner_eq boundary known further (Option.some.inj owner)
    · exact absurd deeper (apart.not_holds_owner loaded boundary known further opens)
  | @step outer id path opens member ih =>
    intro also
    rw [inside_of_opens opens] at member
    have above := loaded.mem_children_iff.1 member
    rcases (holds_iff loaded above).1 also with top | ⟨_, deeper⟩
    · have owner := loaded.mem_children_iff.1 (mem_children_of_mem_tops top)
      rw [above] at owner
      rw [Option.some.inj owner] at opens path
      exact absurd path (apart.not_holds_owner loaded boundary further known opens)
    · exact ih deeper

/-- Where definitions stand apart, a search from an element or attribute meets none. -/
theorem DefinitionsApart.not_define (apart : g.DefinitionsApart) (loaded : g.Loaded)
    (boundary : g.kind start = .element ∨ g.kind start = .attr) {id : Nat}
    (path : g.Reaches (g.Enters target) (g.contentChildren start) id) : g.kind id ≠ .define := by
  intro define
  obtain ⟨source, known, holds⟩ := exists_source path
  obtain ⟨element, attr, definition⟩ := apart id define _ (holds.owner_mem_ancestors loaded)
  rcases known.owner_kind boundary with same | same | same
  · exact element same
  · exact attr same
  · exact definition same

/-- Where definitions stand apart, all that a search comes to is got at by reference. -/
theorem DefinitionsApart.reaches_referred (apart : g.DefinitionsApart) (loaded : g.Loaded)
    (boundary : g.kind start = .element ∨ g.kind start = .attr) {id : Nat}
    (path : g.Reaches (g.Enters target) (g.contentChildren start) id) :
    g.Reaches (g.EntersReferred target) (g.contentChildren start) id := by
  rcases path.referred_or_first with around | ⟨define, kind, _, before, _⟩
  · exact around
  · exact absurd kind (apart.not_define loaded boundary (before.mono fun _ passes => passes.1))

/-- The children and attributes that a search from an element finds: those that paths lead to which
go into definitions by reference alone, and those in definitions that such a path meets. Where
definitions stand apart there are only the former. -/
theorem mem_descend_iff_referred_or_within (loaded : g.Loaded) {element : Nat}
    (pattern : g.kind element = .element) (id : Nat) :
    (id ∈ g.descend element target ↔ g.kind id = target ∧
      (g.Reaches (g.EntersReferred target) (g.contentChildren element) id ∨
        ∃ define, g.kind define = .define ∧ g.Enters target define ∧
          g.Reaches (g.EntersReferred target) (g.contentChildren element) define ∧
          g.Reaches (g.Enters target) (g.children define) id)) ∧
    (g.DefinitionsApart → (id ∈ g.descend element target ↔ g.kind id = target ∧
      g.Reaches (g.EntersReferred target) (g.contentChildren element) id)) := by
  refine ⟨?_, fun apart => ?_⟩
  · rw [mem_descend_iff, reaches_iff_referred_or_first]
  · rw [mem_descend_iff]
    refine and_congr_right fun _ => ⟨apart.reaches_referred loaded (.inl pattern), fun path => ?_⟩
    exact path.mono fun _ passes => passes.1

/-- An element that leads to itself through the definition it stands in. -/
def recursiveDocument : Xml.Document := .ofContent
  [.pattern .start none [.pattern .ref "x" []],
   .pattern .define "x" [.pattern .element "e" [.pattern .ref "x" []]]]

/-- The grammar of `recursiveDocument`; its element is at 4. -/
def recursive : Grammar := .ofKept recursiveDocument rfl

theorem recursive_loaded : recursive.Loaded := loaded_ofKept _ rfl rfl

theorem recursive_child : recursive.Loaded ∧ recursive.DefinitionsApart ∧
    recursive.kind 4 = .element ∧ 4 ∈ recursive.descend 4 .element := by
  have apart : recursive.DefinitionsApart := by decide +kernel
  have pattern : recursive.kind 4 = .element := by decide +kernel
  refine ⟨recursive_loaded, apart, pattern, ?_⟩
  refine ((mem_descend_iff_referred_or_within recursive_loaded pattern 4).2 apart).2 ⟨pattern, ?_⟩
  exact .of_chain 5 [4] (by decide +kernel) (by decide +kernel)

/-- An element with a grammar inside that defines what nothing refers to. -/
def unreferredDocument : Xml.Document := .ofContent
  [.pattern .start none [.pattern .element "e" [.pattern .grammar none
    [.pattern .start none [.pattern .empty none []],
     .pattern .define "y" [.pattern .element "b" [.pattern .empty none []]]]]]]

/-- The grammar of `unreferredDocument`; its outer element is at 2, the inner one at 7. -/
def unreferred : Grammar := .ofKept unreferredDocument rfl

theorem unreferred_loaded : unreferred.Loaded := loaded_ofKept _ rfl rfl

theorem unreferred_child : 7 ∈ unreferred.descend 2 .element := by
  refine mem_descend_iff.2 ⟨by decide +kernel, ?_⟩
  exact .of_chain 3 [6, 7] (by decide +kernel) (by decide +kernel)

theorem unreferred_child_not_referred : ¬ unreferred.Reaches (unreferred.EntersReferred .element)
    (unreferred.contentChildren 2) 7 := by
  intro path
  have among : 7 ∈ [3, 4, 5, 6] := path.mem_of_closed (by decide +kernel) (by decide +kernel)
  exact absurd among (by decide)

/-- A search may find a child without a reference to the definition it stands in. -/
theorem exists_child_not_referred : ¬ ∀ g : Grammar, g.Loaded →
    ∀ element, g.kind element = .element → ∀ target, target = .element ∨ target = .attr →
      ∀ id ∈ g.descend element target,
        g.Reaches (g.EntersReferred target) (g.contentChildren element) id := by
  intro always
  have path := always unreferred unreferred_loaded 2 (by decide +kernel) .element (.inl rfl) 7
    unreferred_child
  exact unreferred_child_not_referred path

end RelaxDoc.Grammar
