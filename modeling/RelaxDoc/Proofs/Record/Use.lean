import RelaxDoc.Proofs.Grammar.Kinship
import RelaxDoc.Proofs.Search.Climbing
import RelaxDoc.Proofs.Search.Expansion
import RelaxDoc.Record.Build

/-! The use of attributes. An attribute is optional if an `optional` pattern leads to it, whichever
element or definition that pattern stands in: its use is the same in the records of all elements. -/
namespace RelaxDoc.Grammar

variable {g : Grammar}

/-- A step down: from a node to its children, and from a reference to those of its definitions. -/
def StepsTo (g : Grammar) (outer id : Nat) : Prop := id ∈ g.children outer ∨ id ∈ g.inside outer

/-- A path down from `outer` that goes on from no element after it. -/
inductive Leads (g : Grammar) (outer : Nat) : Nat → Prop where
  | first {id : Nat} (steps : g.StepsTo outer id) : Leads g outer id
  | next {inner id : Nat} (path : Leads g outer inner) (passes : g.kind inner ≠ .element)
      (steps : g.StepsTo inner id) : Leads g outer id

theorem mem_inside_reference {reference id : Nat} (refers : (g.kind reference).isReference = true) :
    id ∈ g.inside reference ↔ ∃ key, g.defineKey? reference = some key ∧
      ∃ define, define ∈ g.definesOf key ∧ id ∈ g.children define := by
  rw [inside, if_pos refers, deref]
  cases g.defineKey? reference with
  | none => simp
  | some key => simp [expansion]

/-- What is inside of a node is its child, or that of a definition which it refers to. -/
theorem stepsTo_iff (loaded : g.Loaded) {outer id : Nat} : g.StepsTo outer id ↔
    ∃ parent, g.parent? id = some parent ∧ (outer = parent ∨ g.ForksTo parent outer) := by
  constructor
  · rintro (child | within)
    · exact ⟨outer, loaded.mem_children_iff.1 child, .inl rfl⟩
    · by_cases refers : (g.kind outer).isReference = true
      · obtain ⟨key, named, define, found, child⟩ := (mem_inside_reference refers).1 within
        obtain ⟨kind, same⟩ := g.mem_definesOf.1 found
        exact ⟨define, loaded.mem_children_iff.1 child,
          .inr ⟨kind, key, same, g.mem_referencesTo.2 ⟨refers, named⟩⟩⟩
      · rw [inside, if_neg refers] at within
        exact ⟨outer, loaded.mem_children_iff.1 within, .inl rfl⟩
  · rintro ⟨parent, above, rfl | ⟨kind, key, same, member⟩⟩
    · exact .inl (loaded.mem_children_iff.2 above)
    · obtain ⟨refers, named⟩ := g.mem_referencesTo.1 member
      refine .inr ((mem_inside_reference refers).2 ⟨key, named, parent, ?_, ?_⟩)
      · exact g.mem_definesOf.2 ⟨kind, same⟩
      · exact loaded.mem_children_iff.2 above

/-- One more step at the beginning of a path. -/
theorem Leads.after {outer inner id : Nat} (path : g.Leads inner id)
    (passes : g.kind inner ≠ .element) (steps : g.StepsTo outer inner) : g.Leads outer id := by
  induction path with
  | first further => exact .next (.first steps) passes further
  | next _ also further ih => exact .next ih also further

/-- A reference leads to all that its definitions lead to. -/
theorem Leads.of_reference (loaded : g.Loaded) {define reference id : Nat}
    (path : g.Leads define id) (forks : g.ForksTo define reference) : g.Leads reference id := by
  -- The induction is on the end of the path: its first step alone goes on from the definition.
  induction path with
  | first steps =>
    refine .first ((stepsTo_iff loaded).2 ?_)
    rcases steps with child | within
    · exact ⟨define, loaded.mem_children_iff.1 child, .inr forks⟩
    · rw [inside, if_neg (by rw [forks.1]; decide)] at within
      exact ⟨define, loaded.mem_children_iff.1 within, .inr forks⟩
  | next _ passes steps ih => exact .next ih passes steps

/-- The ways up from a node that pass no element are the paths that lead down to it. -/
theorem climbs_iff_leads (loaded : g.Loaded) {outer id : Nat} :
    g.Climbs .element (g.parent? id).toList outer ↔ g.Leads outer id := by
  constructor
  · intro path
    induction path with
    | top member => exact .first (.inl (loaded.mem_children_iff.2 (Option.mem_toList.1 member)))
    | step _ passes above ih =>
      rcases above with parent | forks
      · exact ih.after passes (.inl (loaded.mem_children_iff.2 parent))
      · exact ih.of_reference loaded forks
  · intro path
    have climbs {outer id : Nat} (steps : g.StepsTo outer id) :
        g.Climbs .element (g.parent? id).toList outer := by
      obtain ⟨parent, above, rfl | forks⟩ := (stepsTo_iff loaded).1 steps
      · exact .top (Option.mem_toList.2 above)
      · exact .step (.top (Option.mem_toList.2 above)) (by simp [forks.1]) (.inr forks)
    induction path with
    | first steps => exact climbs steps
    | next _ passes steps ih =>
      refine ih.trans fun parent above => ?_
      exact .step (climbs steps) passes (.inl (Option.mem_toList.1 above))

/-- An attribute is optional exactly if an `optional` pattern leads to it. -/
theorem useOf_eq_optional_iff (loaded : g.Loaded) {attr : Nat} :
    g.useOf attr = .optional ↔
      ∃ wrapper, g.kind wrapper = .optional ∧ g.Leads wrapper attr := by
  have found : g.useOf attr = .optional ↔ g.climb attr .optional .element = true := by
    rw [useOf]
    split <;> simp_all
  rw [found, climb_eq_true_iff]
  constructor
  · intro ⟨wrapper, path, _, kind⟩
    exact ⟨wrapper, kind, (climbs_iff_leads loaded).1 path⟩
  · intro ⟨wrapper, kind, path⟩
    exact ⟨wrapper, (climbs_iff_leads loaded).2 path, by simp [kind], kind⟩

/-- A path of expansion from an element to an attribute passes an `optional` pattern. -/
def PassesOptional (g : Grammar) (element attr : Nat) : Prop :=
  ∃ wrapper, g.kind wrapper = .optional ∧
    g.Reaches (g.Enters .attr) (g.contentChildren element) wrapper ∧
    g.Reaches (g.Enters .attr) (g.inside wrapper) attr

theorem leads_of_reaches {outer id : Nat} (path : g.Reaches (g.Enters .attr) (g.inside outer) id) :
    g.Leads outer id := by
  induction path with
  | top member => exact .first (.inr member)
  | step _ enters member ih => exact .next ih enters.2.1 (.inr member)

theorem PassesOptional.reaches {element attr : Nat} (passes : g.PassesOptional element attr) :
    g.Reaches (g.Enters .attr) (g.contentChildren element) attr := by
  obtain ⟨wrapper, kind, before, after⟩ := passes
  exact before.extend (by simp [Enters, kind]) after

theorem attributes_getElem? (g : Grammar) (index : ElementIndex) (element position : Nat) :
    (g.elementRecord index element).attributes[position]? =
      (g.descend element .attr)[position]?.map g.attributeRecord := List.getElem?_map

/-- An attribute in the record of an element is optional exactly if an `optional` pattern leads to
it, wherever that stands. So it is if a path of expansion from the element passes one. -/
theorem attribute_use_iff (loaded : g.Loaded) {element position attr : Nat}
    (listed : (g.descend element .attr)[position]? = some attr) :
    ∃ record : AttributeRecord,
      (g.elementRecord g.elementIndex element).attributes[position]? = some record ∧
      (record.use = .optional ↔
        ∃ wrapper, g.kind wrapper = .optional ∧ g.Leads wrapper attr) ∧
      (g.PassesOptional element attr → record.use = .optional) := by
  refine ⟨g.attributeRecord attr, ?_, useOf_eq_optional_iff loaded, ?_⟩
  · rw [attributes_getElem?, listed, Option.map_some]
  · intro ⟨wrapper, kind, _, path⟩
    exact (useOf_eq_optional_iff loaded).2 ⟨wrapper, kind, leads_of_reaches path⟩

/-- Two elements that share an attribute through a definition, the second one inside `optional`. -/
def sharedDocument : Xml.Document := .ofContent
  [.pattern .start none
    [.pattern .element "one" [.pattern .ref "shared" []],
     .pattern .element "two" [.pattern .optional none [.pattern .ref "shared" []]]],
   .pattern .define "shared" [.pattern .attr "id" []]]

/-- The grammar of `sharedDocument`; its elements are at 2 and 4, the attribute at 8. -/
def shared : Grammar := .ofKept sharedDocument rfl

theorem shared_loaded : shared.Loaded := loaded_ofKept _ rfl rfl

theorem shared_attribute : shared.kind 8 = .attr := by decide +kernel

theorem shared_passes : shared.PassesOptional 4 8 := by
  refine ⟨5, by decide +kernel, .top (by decide +kernel), ?_⟩
  exact .of_chain 6 [8] (by decide +kernel) (by decide +kernel)

theorem shared_optional : ∃ position : Nat, (shared.descend 4 .attr)[position]? = some 8 ∧
    ∃ record : AttributeRecord,
      (shared.elementRecord shared.elementIndex 4).attributes[position]? = some record ∧
      record.use = .optional := by
  have member := mem_descend_iff.2 ⟨shared_attribute, shared_passes.reaches⟩
  obtain ⟨position, listed⟩ := List.getElem?_of_mem member
  obtain ⟨record, found, _, use⟩ := attribute_use_iff shared_loaded listed
  exact ⟨position, listed, record, found, use shared_passes⟩

/-- The first element leads to the attribute as well, though past no `optional` pattern. -/
theorem shared_not_passes : ¬ shared.PassesOptional 2 8 := by
  intro ⟨wrapper, kind, path, _⟩
  have among : wrapper ∈ [3, 8] := path.mem_of_closed (by decide +kernel) (by decide +kernel)
  have neither : ∀ id ∈ [3, 8], shared.kind id ≠ .optional := by decide +kernel
  exact neither wrapper among kind

/-- An attribute may be optional in the record of an element from which no path passes an
`optional` pattern. -/
theorem exists_use_not_local : ¬ ∀ g : Grammar, g.Loaded → ∀ element, g.kind element = .element →
    ∀ (position attr : Nat) (record : AttributeRecord),
      (g.descend element .attr)[position]? = some attr →
      (g.elementRecord g.elementIndex element).attributes[position]? = some record →
      (record.use = .optional ↔ g.PassesOptional element attr) := by
  intro always
  have path : shared.Reaches (shared.Enters .attr) (shared.contentChildren 2) 8 :=
    .of_chain 3 [8] (by decide +kernel) (by decide +kernel)
  obtain ⟨position, listed⟩ := List.getElem?_of_mem (mem_descend_iff.2 ⟨shared_attribute, path⟩)
  have record : (shared.elementRecord shared.elementIndex 2).attributes[position]? =
      some (shared.attributeRecord 8) := by
    rw [attributes_getElem?, listed, Option.map_some]
  obtain ⟨wrapper, kind, _, within⟩ := shared_passes
  have use : shared.useOf 8 = .optional :=
    (useOf_eq_optional_iff shared_loaded).2 ⟨wrapper, kind, leads_of_reaches within⟩
  have passes := always shared shared_loaded 2 (by decide +kernel) position 8 _ listed record
  exact shared_not_passes (passes.1 use)

end RelaxDoc.Grammar
