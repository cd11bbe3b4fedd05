import RelaxDoc.Proofs.Grammar.Addresses
import RelaxDoc.Proofs.Xml.Declarations
import Mathlib.Data.List.Induction

/-! What qualifiers stand for at the elements of a document: what the nearest element around says that
declares them. Looking a qualifier up in the declarations in force finds just that. -/
namespace RelaxDoc.Xml

/-- The declarations of an element. -/
def Node.declarations : Node → List Declaration
  | .element tag _ => tag.declarations
  | _ => []

namespace Node

variable {root node : Node} {around address : Address} {step : Nat} {qualifier uri : String}

/-- The element at an address declares a qualifier to stand for a URI. -/
def DeclaresAt (root : Node) (address : Address) (qualifier uri : String) : Prop :=
  ∃ node, root.at? address = some node ∧ ⟨some qualifier, uri⟩ ∈ node.declarations

/-- A qualifier stands for a URI at an address. It is declared so there or further out, and no element
in between declares it. -/
def Binds (root : Node) (address : Address) (qualifier uri : String) : Prop :=
  ∃ outer, outer <+: address ∧ root.DeclaresAt outer qualifier uri ∧
    ∀ inner, outer <+: inner → inner <+: address → inner ≠ outer →
      ∀ other, ¬ root.DeclaresAt inner qualifier other

/-- A qualifier stands for nothing at an address. Neither the element there nor one around it declares
the qualifier. -/
def Unbound (root : Node) (address : Address) (qualifier : String) : Prop :=
  ∀ outer, outer <+: address → ∀ uri, ¬ root.DeclaresAt outer qualifier uri

theorem declareOnce_declarations (once : root.DeclaresOnce) (found : root.at? address = some node) :
    DeclareOnce node.declarations := by
  cases node with
  | element tag children => exact once address tag children found
  | text | comment | instruction => exact .nil

theorem declaresAt_iff (found : root.at? address = some node) :
    root.DeclaresAt address qualifier uri ↔ ⟨some qualifier, uri⟩ ∈ node.declarations := by
  rw [DeclaresAt, found]
  simp

theorem binds_nil_iff : root.Binds [] qualifier uri ↔ root.DeclaresAt [] qualifier uri := by
  constructor
  · intro ⟨outer, leading, declares, _⟩
    cases List.prefix_nil.1 leading
    exact declares
  · intro declares
    exact ⟨[], List.prefix_rfl, declares, fun inner _ within other =>
      absurd (List.prefix_nil.1 within) other⟩

/-- An element that declares a qualifier decides. Any other one leaves it as it is around. -/
theorem binds_concat_iff : root.Binds (around ++ [step]) qualifier uri ↔
    root.DeclaresAt (around ++ [step]) qualifier uri ∨
      (∀ other, ¬ root.DeclaresAt (around ++ [step]) qualifier other) ∧
        root.Binds around qualifier uri := by
  constructor
  · intro ⟨outer, leading, declares, nearest⟩
    rcases List.prefix_concat_iff.1 leading with rfl | leading
    · exact .inl declares
    · have shorter : around ++ [step] ≠ outer := by
        rintro rfl
        exact absurd leading.length_le (by simp)
      refine .inr ⟨nearest _ (leading.trans (List.prefix_append ..)) List.prefix_rfl shorter, ?_⟩
      exact ⟨outer, leading, declares, fun inner further within =>
        nearest inner further (within.trans (List.prefix_append ..))⟩
  · rintro (declares | ⟨silent, outer, leading, declares, nearest⟩)
    · exact ⟨_, List.prefix_rfl, declares, fun inner further within other =>
        absurd (within.eq_of_length_le further.length_le) other⟩
    · refine ⟨outer, leading.trans (List.prefix_append ..), declares, ?_⟩
      intro inner further within other
      rcases List.prefix_concat_iff.1 within with rfl | within
      · exact silent
      · exact nearest inner further within other

theorem unbound_nil_iff :
    root.Unbound [] qualifier ↔ ∀ uri, ¬ root.DeclaresAt [] qualifier uri := by
  simp [Unbound, List.prefix_nil]

theorem unbound_concat_iff : root.Unbound (around ++ [step]) qualifier ↔
    (∀ uri, ¬ root.DeclaresAt (around ++ [step]) qualifier uri) ∧ root.Unbound around qualifier := by
  constructor
  · intro unbound
    exact ⟨unbound _ List.prefix_rfl, fun outer leading =>
      unbound outer (leading.trans (List.prefix_append ..))⟩
  · intro ⟨silent, unbound⟩ outer leading
    rcases List.prefix_concat_iff.1 leading with rfl | leading
    · exact silent
    · exact unbound outer leading

end Node

theorem Scope.lookup_enter (scope : Scope) (declarations : List Declaration)
    (qualifier : Option String) : (scope.enter declarations).lookup qualifier =
      (Scope.lookup declarations qualifier).or (scope.lookup qualifier) := by
  simp only [lookup, enter, List.find?_append]
  cases declarations.find? fun d => d.qualifier = qualifier <;> rfl

theorem Scope.lookup_cons (d : Declaration) (scope : Scope) (qualifier : Option String) :
    Scope.lookup (d :: scope) qualifier =
      if d.qualifier = qualifier then some d.uri else scope.lookup qualifier := by
  rw [lookup, List.find?_cons]
  by_cases same : d.qualifier = qualifier
  · simp [same]
  · simp [same, lookup]

theorem Scope.lookup_eq_none_iff {scope : Scope} {qualifier : String} :
    scope.lookup (some qualifier) = none ↔ ∀ uri, ⟨some qualifier, uri⟩ ∉ scope := by
  rw [lookup, Option.map_eq_none_iff, List.find?_eq_none]
  simp only [decide_eq_true_eq]
  constructor
  · exact fun other uri member => other _ member rfl
  · rintro absent ⟨_, uri⟩ member rfl
    exact absent uri member

theorem DeclareOnce.tail {d : Declaration} {declarations : List Declaration}
    (once : DeclareOnce (d :: declarations)) : DeclareOnce declarations :=
  List.Nodup.sublist (List.Sublist.filterMap _ (List.sublist_cons_self ..)) once

/-- A qualifier that is declared is not declared again. -/
theorem DeclareOnce.lookup_tail {d : Declaration} {declarations : List Declaration}
    (once : DeclareOnce (d :: declarations)) {qualifier : String}
    (here : d.qualifier = some qualifier) : Scope.lookup declarations (some qualifier) = none := by
  rw [Scope.lookup_eq_none_iff]
  intro uri member
  rw [DeclareOnce, List.filterMap_cons_some here] at once
  exact (List.nodup_cons.1 once).1 (List.mem_filterMap.2 ⟨_, member, rfl⟩)

/-- A qualifier that is declared only once is found with that declaration. -/
theorem DeclareOnce.lookup_eq_some_iff {declarations : List Declaration}
    (once : DeclareOnce declarations) {qualifier uri : String} :
    Scope.lookup declarations (some qualifier) = some uri ↔
      ⟨some qualifier, uri⟩ ∈ declarations := by
  constructor
  · intro found
    obtain ⟨d, first, rfl⟩ := Option.map_eq_some_iff.1 found
    have same : d.qualifier = some qualifier := by simpa using List.find?_some first
    exact same ▸ List.mem_of_find?_eq_some first
  · intro member
    induction declarations with
    | nil => cases member
    | cons d rest ih =>
      rw [Scope.lookup_cons]
      rcases List.mem_cons.1 member with rfl | later
      · exact if_pos rfl
      · have other : d.qualifier ≠ some qualifier := fun same =>
          Scope.lookup_eq_none_iff.1 (once.lookup_tail same) uri later
        rw [if_neg other]
        exact ih once.tail later

namespace Node

variable {root node : Node} {around address : Address} {step : Nat} {qualifier uri : String}

/-- The declarations in force in the element at an address of a node inside `outer`. -/
def scopeAt : Scope → Address → Node → Scope
  | outer, [], node => outer.enter node.declarations
  | outer, index :: rest, node =>
    match node.children[index]? with
    | none => outer.enter node.declarations
    | some child => scopeAt (outer.enter node.declarations) rest child

theorem scopeAt_concat (outer : Scope) (found : root.at? (around ++ [step]) = some node) :
    root.scopeAt outer (around ++ [step]) =
      (root.scopeAt outer around).enter node.declarations := by
  induction around generalizing root outer with
  | nil =>
    obtain ⟨child, here, top⟩ := at?_cons.1 found
    cases top
    rw [List.nil_append, scopeAt]
    simp only [here, scopeAt]
  | cons index rest ih =>
    obtain ⟨child, here, below⟩ := at?_cons.1 found
    rw [List.cons_append, scopeAt, scopeAt]
    simp only [here]
    exact ih _ below

/-- What looking up a qualifier in the scope at an address finds is what it stands for there. -/
theorem lookup_scopeAt_eq_some_iff (once : root.DeclaresOnce) (found : root.at? address = some node) :
    (root.scopeAt [] address).lookup (some qualifier) = some uri ↔
      root.Binds address qualifier uri := by
  -- The nearest declaration is met last on the way to the element.
  induction address using List.reverseRecOn generalizing node with
  | nil =>
    obtain rfl : root = node := Option.some.inj found
    rw [binds_nil_iff, declaresAt_iff found, scopeAt, Scope.enter, List.append_nil]
    exact (declareOnce_declarations once found).lookup_eq_some_iff
  | append_singleton around step ih =>
    obtain ⟨outer, reached, _⟩ := at?_concat_iff.1 found
    have here := declareOnce_declarations once found
    rw [binds_concat_iff, scopeAt_concat [] found, Scope.lookup_enter, Option.or_eq_some_iff,
      here.lookup_eq_some_iff, Scope.lookup_eq_none_iff, ih reached]
    simp only [declaresAt_iff found]

theorem lookup_scopeAt_eq_none_iff (found : root.at? address = some node) :
    (root.scopeAt [] address).lookup (some qualifier) = none ↔ root.Unbound address qualifier := by
  induction address using List.reverseRecOn generalizing node with
  | nil =>
    obtain rfl : root = node := Option.some.inj found
    rw [unbound_nil_iff, scopeAt, Scope.enter, List.append_nil, Scope.lookup_eq_none_iff]
    simp only [declaresAt_iff found]
  | append_singleton around step ih =>
    obtain ⟨outer, reached, _⟩ := at?_concat_iff.1 found
    rw [unbound_concat_iff, scopeAt_concat [] found, Scope.lookup_enter, Option.or_eq_none_iff,
      Scope.lookup_eq_none_iff, ih reached]
    simp only [declaresAt_iff found]

end Node

end RelaxDoc.Xml
