import RelaxDoc.Diagram.Draw

/-! What a diagram shows of a node, as rules on the grammar: the body that the node has, the name that
it goes by, and the label that it is drawn with. -/
namespace RelaxDoc

/-- The kinds of patterns with a label of their own, which is the same for all of them. -/
def fixedLabels : List (Kind × String) :=
  [(.zeroOrMore, "*"), (.oneOrMore, "+"), (.optional, "?"), (.choice, "|"), (.interleave, "&"),
   (.exclusion, "-"), (.group, "group"), (.list, "list"), (.mixed, "mixed"), (.text, "text"),
   (.empty, "empty"), (.notAllowed, "notAllowed"), (.anyName, "anyName"), (.div, "div"),
   (.externalRef, "externalRef")]

namespace Grammar

/-- The name class of an element or attribute without a name: its first child that is no
documentation. -/
structure IsNameClass (g : Grammar) (id child : Nat) : Prop where
  pattern : g.kind id = .element ∨ g.kind id = .attr
  unnamed : (g.node id).attribute? "name" = none
  other : g.kind child ≠ .documentation
  first : ∃ front back, g.children id = front ++ child :: back ∧
    ∀ earlier ∈ front, g.kind earlier = .documentation

/-- The body of a node: its children, without the name class if there is one. -/
inductive HasBody (g : Grammar) (id : Nat) : List Nat → Prop where
  | whole (none : ∀ child, ¬ g.IsNameClass id child) : HasBody g id (g.children id)
  | without {child : Nat} (nameClass : g.IsNameClass id child) :
    HasBody g id ((g.children id).filter (· ≠ child))

/-- The name that is written on a node, or in its name class if that is a single name. -/
inductive Declares (g : Grammar) (id : Nat) : String → Prop where
  | written {name : String} (named : (g.node id).attribute? "name" = some name) : Declares g id name
  | single {child : Nat} (unnamed : (g.node id).attribute? "name" = none)
    (nameClass : g.IsNameClass id child) (name : g.kind child = .name) :
    Declares g id (g.node child).content

/-- The name of an element: the declared one, else that of the nearest definition around it, if there
is one with a name. -/
inductive GoesBy (g : Grammar) (id : Nat) : String → Prop where
  | declared {name : String} (declares : g.Declares id name) : GoesBy g id name
  | borrowed {define : Nat} {name : String} (undeclared : ∀ name, ¬ g.Declares id name)
    (around : g.enclosing? id .define = some define)
    (named : (g.node define).attribute? "name" = some name) : GoesBy g id name
  | any (undeclared : ∀ name, ¬ g.Declares id name)
    (unnamed : ∀ define, g.enclosing? id .define = some define →
      (g.node define).attribute? "name" = none) : GoesBy g id "anyName"

/-- The label of a node that is drawn itself. -/
inductive HasLabel (g : Grammar) (id : Nat) : String → Prop where
  | element {name : String} (kind : g.kind id = .element) (goes : g.GoesBy id name) :
    HasLabel g id name
  | attr {name : String} (kind : g.kind id = .attr) (declares : g.Declares id name) :
    HasLabel g id name
  | nameClass (kind : g.kind id = .attr) (undeclared : ∀ name, ¬ g.Declares id name) :
    HasLabel g id "name class"
  | typed {type : String} (kind : g.kind id = .data)
    (typed : (g.node id).attribute? "type" = some type) : HasLabel g id type
  | untyped (kind : g.kind id = .data) (untyped : (g.node id).attribute? "type" = none) :
    HasLabel g id ""
  | content (kind : g.kind id = .value ∨ g.kind id = .name) : HasLabel g id (g.node id).content
  | param {name : String} (kind : g.kind id = .param)
    (named : (g.node id).attribute? "name" = some name) : HasLabel g id name
  | unnamedParam (kind : g.kind id = .param) (unnamed : (g.node id).attribute? "name" = none) :
    HasLabel g id ""
  | inNamespace {uri : String} (kind : g.kind id = .nsName)
    (stated : (g.node id).attribute? "ns" = some uri) : HasLabel g id uri
  | inNoNamespace (kind : g.kind id = .nsName) (unstated : (g.node id).attribute? "ns" = none) :
    HasLabel g id "No Namespace"
  | fixed {label : String} (fixed : (g.kind id, label) ∈ fixedLabels) : HasLabel g id label

variable {g : Grammar} {id child : Nat} {content : List Nat} {name label : String}

theorem isNameClass_iff : g.IsNameClass id child ↔ g.nameClass? id = some child := by
  have first : ((g.children id).find? fun child => g.kind child ≠ .documentation) = some child ↔
      g.kind child ≠ .documentation ∧ ∃ front back, g.children id = front ++ child :: back ∧
        ∀ earlier ∈ front, g.kind earlier = .documentation := by
    rw [List.find?_eq_some_iff_append]
    simp
  unfold Arena.nameClass?
  constructor
  · rintro ⟨pattern, unnamed, other, split⟩
    rw [if_pos ⟨pattern, unnamed⟩]
    exact first.2 ⟨other, split⟩
  · intro found
    split at found
    case isTrue asked =>
      obtain ⟨other, split⟩ := first.1 found
      exact ⟨asked.1, asked.2, other, split⟩
    case isFalse => cases found

theorem hasBody_iff : g.HasBody id content ↔ content = g.contentChildren id := by
  unfold Arena.contentChildren
  cases nameClass : g.nameClass? id with
  | none =>
    have free (child : Nat) : ¬ g.IsNameClass id child := by
      rw [isNameClass_iff, nameClass]
      nofun
    have all : (g.children id).filter (fun child => none ≠ some child) = g.children id :=
      List.filter_eq_self.2 fun child _ => rfl
    rw [all]
    refine ⟨fun has => ?_, ?_⟩
    · cases has with
      | whole => rfl
      | without found => exact absurd found (free _)
    · rintro rfl
      exact .whole free
  | some child =>
    have found := isNameClass_iff.2 nameClass
    have others : (g.children id).filter (fun other => some child ≠ some other) =
        (g.children id).filter (· ≠ child) := by
      simp [eq_comm]
    rw [others]
    refine ⟨fun has => ?_, ?_⟩
    · cases has with
      | whole none => exact absurd found (none child)
      | without there =>
        cases nameClass.symm.trans (isNameClass_iff.1 there)
        rfl
    · rintro rfl
      exact .without found

theorem declares_iff : g.Declares id name ↔ g.declaredName? id = some name := by
  unfold Arena.declaredName? Arena.nameNode? Node.name?
  constructor
  · intro declares
    cases declares with
    | written named => simp [named]
    | single unnamed nameClass kind =>
      simp only [unnamed, isNameClass_iff.1 nameClass, Option.filter_some, kind, decide_true]
      rfl
  · intro found
    cases named : (g.node id).attribute? "name" with
    | some written =>
      rw [named] at found
      cases found
      exact .written named
    | none =>
      rw [named] at found
      obtain ⟨child, there, rfl⟩ := Option.map_eq_some_iff.1 found
      obtain ⟨nameClass, kind⟩ := Option.filter_eq_some_iff.1 there
      exact .single named (isNameClass_iff.2 nameClass) (by simpa using kind)

theorem undeclared_iff : (∀ name, ¬ g.Declares id name) ↔ g.declaredName? id = none := by
  simp only [declares_iff, Option.eq_none_iff_forall_ne_some]

theorem goesBy_iff : g.GoesBy id name ↔ name = g.elementName id := by
  unfold Arena.elementName
  cases declared : g.declaredName? id with
  | some written =>
    have declares : g.Declares id written := declares_iff.2 declared
    refine ⟨fun goes => ?_, ?_⟩
    · cases goes with
      | declared also =>
        cases declared.symm.trans (declares_iff.1 also)
        rfl
      | borrowed undeclared | any undeclared => exact absurd declares (undeclared written)
    · rintro rfl
      exact .declared declares
  | none =>
    have undeclared := undeclared_iff.2 declared
    cases borrowed : (g.enclosing? id .define).bind fun define => (g.node define).name? with
    | some other =>
      obtain ⟨define, around, named⟩ := Option.bind_eq_some_iff.1 borrowed
      refine ⟨fun goes => ?_, ?_⟩
      · cases goes with
        | declared declares => exact absurd declares (undeclared _)
        | borrowed _ also there =>
          cases around.symm.trans also
          cases named.symm.trans there
          rfl
        | any _ unnamed => cases (unnamed define around).symm.trans named
      · rintro rfl
        exact .borrowed undeclared around named
    | none =>
      have unnamed := Option.bind_eq_none_iff.1 borrowed
      refine ⟨fun goes => ?_, ?_⟩
      · cases goes with
        | declared declares => exact absurd declares (undeclared _)
        | borrowed _ around named => cases (unnamed _ around).symm.trans named
        | any => rfl
      · rintro rfl
        exact .any undeclared unnamed

theorem HasLabel.eq_drawnLabel (has : g.HasLabel id label) : label = g.drawnLabel id := by
  cases has with
  | element kind goes =>
    simp only [drawnLabel, show (g.node id).kind = _ from kind]
    exact goesBy_iff.1 goes
  | attr kind declares =>
    simp [drawnLabel, show (g.node id).kind = _ from kind, declares_iff.1 declares]
  | nameClass kind undeclared =>
    simp [drawnLabel, show (g.node id).kind = _ from kind, undeclared_iff.1 undeclared]
  | typed kind value | param kind value | inNamespace kind value =>
    simp [drawnLabel, show (g.node id).kind = _ from kind, Node.name?, value]
  | untyped kind none | unnamedParam kind none | inNoNamespace kind none =>
    simp [drawnLabel, show (g.node id).kind = _ from kind, Node.name?, none]
  | content kind =>
    rcases kind with kind | kind <;> simp only [drawnLabel, show (g.node id).kind = _ from kind]
  | fixed listed =>
    have table : ∀ entry ∈ fixedLabels,
        entry.1 ∉ [.element, .attr, .data, .value, .name, .param, .nsName] ∧
          entry.2 = entry.1.style.glyph.getD entry.1.tag := by decide
    obtain ⟨other, same⟩ := table _ listed
    simp only [drawnLabel]
    split <;> rename_i kind
    case h_8 => exact same
    all_goals exact absurd (show g.kind id = _ from kind) fun kind => other (by simp [kind])

/-- A node that is drawn itself has a label. -/
theorem hasLabel_drawnLabel (shown : g.kind id ∉ [.grammar, .start, .define, .inclusion])
    (other : g.kind id ≠ .documentation) (plain : (g.kind id).isReference = false) :
    g.HasLabel id (g.drawnLabel id) := by
  cases kind : g.kind id with
  | element =>
    simp only [drawnLabel, show (g.node id).kind = _ from kind]
    exact .element kind (goesBy_iff.2 rfl)
  | attr =>
    simp only [drawnLabel, show (g.node id).kind = _ from kind]
    cases declared : g.declaredName? id with
    | some name => exact .attr kind (declares_iff.2 declared)
    | none => exact .nameClass kind (undeclared_iff.2 declared)
  | data =>
    simp only [drawnLabel, show (g.node id).kind = _ from kind]
    cases type : (g.node id).attribute? "type" with
    | some type => exact .typed kind ‹_›
    | none => exact .untyped kind type
  | value | name =>
    simp only [drawnLabel, show (g.node id).kind = _ from kind]
    exact .content (by simp [kind])
  | param =>
    simp only [drawnLabel, show (g.node id).kind = _ from kind]
    cases named : (g.node id).name? with
    | some name => exact .param kind named
    | none => exact .unnamedParam kind named
  | nsName =>
    simp only [drawnLabel, show (g.node id).kind = _ from kind]
    cases stated : (g.node id).attribute? "ns" with
    | some uri => exact .inNamespace kind stated
    | none => exact .inNoNamespace kind stated
  | documentation => exact absurd kind other
  | grammar | start | define | inclusion => simp [kind] at shown
  | ref | parentRef => simp [kind, Kind.isReference] at plain
  | _ =>
    simp only [drawnLabel, show (g.node id).kind = _ from kind]
    exact .fixed (by rw [kind]; decide)

end Grammar

end RelaxDoc
