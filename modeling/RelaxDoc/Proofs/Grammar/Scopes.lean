import RelaxDoc.Proofs.Grammar.Keys
import RelaxDoc.Proofs.Grammar.Kinship
import RelaxDoc.Search.Descent

/-! Definitions and references by scope. The table holds under a key the definitions in its scope
and the references from there and from one grammar further in, and each of the two indexes is the
converse of the other. -/
namespace RelaxDoc.Grammar

variable {g : Grammar}

/-- A way up from a node to one around it, parent by parent. -/
inductive Encloses (g : Grammar) : (outer id : Nat) → Prop where
  | parent {outer id : Nat} (above : g.parent? id = some outer) : Encloses g outer id
  | further {outer inner id : Nat} (above : g.parent? id = some inner)
      (encloses : Encloses g outer inner) : Encloses g outer id

theorem Encloses.lt {outer id : Nat} (encloses : g.Encloses outer id) : outer < id := by
  induction encloses with
  | parent above => exact g.parent?_lt above
  | further above _ ih => exact Nat.lt_trans ih (g.parent?_lt above)

theorem Encloses.of_parent {outer inner id : Nat} (encloses : g.Encloses outer id)
    (above : g.parent? id = some inner) : outer = inner ∨ g.Encloses outer inner := by
  cases encloses with
  | parent same =>
    rw [same] at above
    exact .inl (Option.some.inj above)
  | further same encloses =>
    rw [same] at above
    cases above
    exact .inr encloses

/-- The nearest grammar around a node, or none if there is no grammar around it. -/
def HasScope (g : Grammar) (id : Nat) : Option Nat → Prop
  | none => ∀ outer, g.Encloses outer id → g.kind outer ≠ .grammar
  | some scope => g.kind scope = .grammar ∧ g.Encloses scope id ∧
      ∀ outer, g.Encloses outer id → g.kind outer = .grammar →
        outer = scope ∨ g.Encloses outer scope

theorem hasScope_root {id : Nat} (orphan : g.parent? id = none) : g.HasScope id none := by
  intro outer encloses
  cases encloses with
  | parent above | further above _ =>
    rw [orphan] at above
    cases above

theorem hasScope_child {id outer : Nat} (above : g.parent? id = some outer)
    (grammar : g.kind outer = .grammar) : g.HasScope id (some outer) :=
  ⟨grammar, .parent above, fun _ encloses _ => encloses.of_parent above⟩

/-- A parent that is no grammar has the same scope as its children. -/
theorem hasScope_of_parent {id outer : Nat} {scope : Option Nat} (above : g.parent? id = some outer)
    (other : g.kind outer ≠ .grammar) (around : g.HasScope outer scope) : g.HasScope id scope := by
  cases scope with
  | none =>
    intro further encloses
    rcases encloses.of_parent above with rfl | encloses
    · exact other
    · exact around further encloses
  | some scope =>
    obtain ⟨grammar, encloses, nearest⟩ := around
    refine ⟨grammar, .further above encloses, ?_⟩
    intro further encloses also
    rcases encloses.of_parent above with rfl | encloses
    · exact absurd also other
    · exact nearest further encloses also

/-- There is one nearest grammar at most, as of two each would be around the other. -/
theorem HasScope.unique {id : Nat} {one other : Option Nat} (first : g.HasScope id one)
    (second : g.HasScope id other) : one = other := by
  cases one with
  | none =>
    cases other with
    | none => rfl
    | some other => exact absurd second.1 (first other second.2.1)
  | some one =>
    cases other with
    | none => exact absurd first.1 (second one first.2.1)
    | some other =>
      rcases first.2.2 other second.2.1 second.1 with same | inner
      · rw [same]
      · rcases second.2.2 one first.2.1 first.1 with same | outer
        · rw [same]
        · exact absurd inner.lt (Nat.lt_asymm outer.lt)

theorem enclosing?_of_orphan {id : Nat} (orphan : g.parent? id = none) (kind : Kind) :
    g.enclosing? id kind = none := by
  rw [Arena.enclosing?, ancestors_of_orphan orphan, List.find?_nil]

theorem enclosing?_of_parent {id outer : Nat} (above : g.parent? id = some outer) (kind : Kind) :
    g.enclosing? id kind = if g.kind outer = kind then some outer else g.enclosing? outer kind := by
  rw [Arena.enclosing?, ancestors_of_parent above, List.find?_cons]
  by_cases same : g.kind outer = kind <;> simp [same, Arena.enclosing?]

theorem hasScope_enclosing? (g : Grammar) (id : Nat) :
    g.HasScope id (g.enclosing? id .grammar) := by
  -- A parent comes before its children, so its scope is known already.
  induction id using Nat.strongRecOn with
  | ind id ih =>
    cases above : g.parent? id with
    | none =>
      rw [enclosing?_of_orphan above]
      exact hasScope_root above
    | some outer =>
      rw [enclosing?_of_parent above]
      split
      · rename_i grammar
        exact hasScope_child above grammar
      · rename_i other
        exact hasScope_of_parent above other (ih outer (g.parent?_lt above))

theorem enclosing?_eq_iff {id : Nat} {scope : Option Nat} :
    g.enclosing? id .grammar = scope ↔ g.HasScope id scope := by
  constructor
  · intro same
    exact same ▸ g.hasScope_enclosing? id
  · exact (g.hasScope_enclosing? id).unique

/-- The scope that a reference looks into: its own for a `ref`, for a `parentRef` the one around
the nearest grammar. -/
def LooksInto (g : Grammar) (id : Nat) (scope : Option Nat) : Prop :=
  (g.kind id = .ref ∧ g.HasScope id scope) ∨
    (g.kind id = .parentRef ∧
      ((∃ inner, g.HasScope id (some inner) ∧ g.HasScope inner scope) ∨
        (g.HasScope id none ∧ scope = none)))

theorem defineKey?_of_define {id : Nat} (define : g.kind id = .define) {key : DefineKey} :
    g.defineKey? id = some key ↔
      (g.node id).name? = some key.name ∧ g.HasScope id key.scope := by
  obtain ⟨scope, name⟩ := key
  rw [Arena.defineKey?, ← enclosing?_eq_iff, define]
  cases (g.node id).name? <;> simp [and_comm]

theorem bind_enclosing?_eq_iff {id : Nat} {scope : Option Nat} :
    ((g.enclosing? id .grammar).bind fun grammar => g.enclosing? grammar .grammar) = scope ↔
      (∃ inner, g.HasScope id (some inner) ∧ g.HasScope inner scope) ∨
        (g.HasScope id none ∧ scope = none) := by
  simp only [← enclosing?_eq_iff]
  cases g.enclosing? id .grammar <;> simp [eq_comm]

theorem isReference_iff {id : Nat} :
    (g.kind id).isReference = true ↔ g.kind id = .ref ∨ g.kind id = .parentRef := by
  cases g.kind id <;> decide

theorem defineKey?_of_reference {id : Nat} (refers : (g.kind id).isReference = true)
    {key : DefineKey} : g.defineKey? id = some key ↔
      (g.node id).name? = some key.name ∧ g.LooksInto id key.scope := by
  obtain ⟨scope, name⟩ := key
  rw [Arena.defineKey?, LooksInto, ← bind_enclosing?_eq_iff, ← enclosing?_eq_iff]
  rcases isReference_iff.1 refers with kind | kind
  · rw [kind]
    cases (g.node id).name? <;> simp [and_comm]
  · rw [kind]
    cases (g.node id).name? <;> simp [and_comm]

theorem LooksInto.isReference {id : Nat} {scope : Option Nat} (looks : g.LooksInto id scope) :
    (g.kind id).isReference = true :=
  isReference_iff.2 (looks.imp And.left And.left)

/-- A definition is among those under the key of a reference. -/
def ResolvesTo (g : Grammar) (reference define : Nat) : Prop :=
  ∃ key, g.defineKey? reference = some key ∧ define ∈ g.definesOf key

/-- A reference is among those under the key of a definition. -/
def IsReferredBy (g : Grammar) (define reference : Nat) : Prop :=
  ∃ key, g.defineKey? define = some key ∧ reference ∈ g.referencesTo key

/-- A table that holds definitions and references by scope, each once and in document order, with
the one index the converse of the other. -/
structure ScopedTable (g : Grammar) : Prop where
  defines_sorted : ∀ key, (g.definesOf key).Pairwise (· < ·)
  /-- The definitions under a key are those of its name with its scope around them. -/
  defines : ∀ key id, id ∈ g.definesOf key ↔
    g.kind id = .define ∧ (g.node id).name? = some key.name ∧ g.HasScope id key.scope
  references_sorted : ∀ key, (g.referencesTo key).Pairwise (· < ·)
  /-- The references under a key are those by its name that look into its scope. -/
  references : ∀ key id, id ∈ g.referencesTo key ↔
    (g.node id).name? = some key.name ∧ g.LooksInto id key.scope
  converse : ∀ reference define, (g.kind reference).isReference = true →
    g.kind define = .define → (g.ResolvesTo reference define ↔ g.IsReferredBy define reference)
  /-- A reference stands for the children of the definitions that are referred to by it. -/
  deref : ∀ reference, (g.kind reference).isReference = true → ∀ inner,
    inner ∈ g.deref reference ↔ ∃ define, g.parent? inner = some define ∧
      g.kind define = .define ∧ g.IsReferredBy define reference

theorem definesOf_sorted (g : Grammar) (key : DefineKey) :
    (g.definesOf key).Pairwise (· < ·) := by
  rw [definesOf_eq]
  exact List.pairwise_lt_range.filter _

theorem referencesTo_sorted (g : Grammar) (key : DefineKey) :
    (g.referencesTo key).Pairwise (· < ·) := by
  rw [referencesTo_eq]
  exact List.pairwise_lt_range.filter _

/-- Both sides say that the two have a key and that it is the same. -/
theorem resolvesTo_iff_isReferredBy {reference define : Nat}
    (refers : (g.kind reference).isReference = true) (defines : g.kind define = .define) :
    g.ResolvesTo reference define ↔ g.IsReferredBy define reference := by
  constructor
  · intro ⟨key, named, member⟩
    exact ⟨key, (g.mem_definesOf.1 member).2, g.mem_referencesTo.2 ⟨refers, named⟩⟩
  · intro ⟨key, named, member⟩
    exact ⟨key, (g.mem_referencesTo.1 member).2, g.mem_definesOf.2 ⟨defines, named⟩⟩

theorem mem_deref_iff {reference inner : Nat} :
    inner ∈ g.deref reference ↔ ∃ define, inner ∈ g.children define ∧
      g.ResolvesTo reference define := by
  rw [deref]
  cases named : g.defineKey? reference with
  | none => simp [ResolvesTo, named]
  | some key => simp [ResolvesTo, named, expansion, and_comm]

theorem ResolvesTo.kind {reference define : Nat} (resolves : g.ResolvesTo reference define) :
    g.kind define = .define := by
  obtain ⟨_, _, member⟩ := resolves
  exact (g.mem_definesOf.1 member).1

/-- The table of a loaded grammar holds definitions and references by scope. -/
theorem scopedTable_of_loaded (loaded : g.Loaded) : g.ScopedTable where
  defines_sorted := g.definesOf_sorted
  defines key id := by
    rw [mem_definesOf]
    exact and_congr_right fun define => defineKey?_of_define define
  references_sorted := g.referencesTo_sorted
  references key id := by
    rw [mem_referencesTo]
    constructor
    · intro ⟨refers, named⟩
      exact (defineKey?_of_reference refers).1 named
    · intro ⟨named, looks⟩
      have refers := looks.isReference
      exact ⟨refers, (defineKey?_of_reference refers).2 ⟨named, looks⟩⟩
  converse _ _ := resolvesTo_iff_isReferredBy
  deref reference refers inner := by
    rw [mem_deref_iff]
    constructor
    · intro ⟨define, child, resolves⟩
      have referred := (resolvesTo_iff_isReferredBy refers resolves.kind).1 resolves
      exact ⟨define, loaded.mem_children_iff.1 child, resolves.kind, referred⟩
    · intro ⟨define, parent, kind, referred⟩
      have resolves := (resolvesTo_iff_isReferredBy refers kind).2 referred
      exact ⟨define, loaded.mem_children_iff.2 parent, resolves⟩

/-- Two grammars, one in the other, that both define a name; the inner one refers to the
definition of the outer. -/
def nestedDocument : Xml.Document := .ofContent
  [.pattern .start none [.pattern .grammar none
    [.pattern .start none [.pattern .parentRef "x" []],
     .pattern .define "x" [.pattern .text none []]]],
   .pattern .define "x" [.pattern .empty none []]]

/-- The grammar of `nestedDocument`; its reference is at 4, the outer definition at 7. -/
def nested : Grammar := .ofKept nestedDocument rfl

theorem nested_loaded : nested.Loaded := loaded_ofKept _ rfl rfl

theorem nested_deref : nested.Loaded ∧ nested.IsReferredBy 7 4 ∧ 8 ∈ nested.deref 4 := by
  have table := scopedTable_of_loaded nested_loaded
  have refers : (nested.kind 4).isReference = true := by decide +kernel
  have defines : nested.kind 7 = .define := by decide +kernel
  have resolves : nested.ResolvesTo 4 7 :=
    ⟨⟨some 0, "x"⟩, by decide +kernel, by decide +kernel⟩
  have referred := (table.converse 4 7 refers defines).1 resolves
  refine ⟨nested_loaded, referred, (table.deref 4 refers 8).2 ⟨7, ?_, defines, referred⟩⟩
  decide +kernel

end RelaxDoc.Grammar
