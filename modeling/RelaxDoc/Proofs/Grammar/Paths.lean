import RelaxDoc.Grammar.Path
import RelaxDoc.Proofs.Grammar.Spans
import RelaxDoc.Proofs.Text.Parts
import Mathlib.Data.List.Basic
import Mathlib.Data.List.TakeWhile

/-! Location paths as names of nodes. The steps that a path is written with are found again in its
text, and following them from the root leads to the one node that it is the path of. -/
namespace RelaxDoc

namespace PathStep

variable {step : PathStep} {steps : List PathStep}

/-- The step that is written as `cs`: a label, and behind it a number in brackets if it has one. -/
def ofChars? (cs : List Char) : Option PathStep :=
  let label := String.ofList (cs.takeWhile (· ≠ '['))
  match cs.dropWhile (· ≠ '[') with
  | [] => some ⟨label, none⟩
  | _ :: rest =>
    if rest = rest.dropLast ++ [']'] ∧ rest.dropLast.all Char.isDigit then
      some ⟨label, some (Nat.ofDigitChars 10 rest.dropLast 0)⟩
    else none

/-- The steps that a path is written with. There is a slash in front of each. -/
def read? (path : String) : Option (List PathStep) :=
  match Text.split '/' path.toList with
  | [] :: parts => parts.mapM ofChars?
  | _ => none

/-- A step whose label ends before what is written behind it. -/
structure IsPlain (step : PathStep) : Prop where
  slash : '/' ∉ step.label.toList
  bracket : '[' ∉ step.label.toList

theorem IsPlain.of_kind (kind : Kind) (position : Option Nat) : IsPlain ⟨kind.tag, position⟩ := by
  have plain : '/' ∉ kind.tag.toList ∧ '[' ∉ kind.tag.toList := by cases kind <;> decide
  exact ⟨plain.1, plain.2⟩

theorem toList_text_numbered (label : String) (n : Nat) : (text ⟨label, some n⟩).toList =
    label.toList ++ '[' :: ((toString n).toList ++ [']']) := by
  change ("" ++ label ++ "[" ++ toString n ++ "]").toList = _
  simp only [String.toList_append, String.empty_append, List.append_assoc]
  rfl

theorem slash_not_mem_text (plain : step.IsPlain) : '/' ∉ step.text.toList := by
  obtain ⟨label, position⟩ := step
  cases position with
  | none => exact plain.slash
  | some n =>
    have number := Text.not_mem_toString (show Char.isDigit '/' = false from rfl) n
    rw [toList_text_numbered, List.mem_append, List.mem_cons, List.mem_append, List.mem_singleton]
    simp only [plain.slash, number, or_self, not_false_eq_true, Char.reduceEq]

/-- A step is found again in its text. -/
theorem ofChars?_text (plain : step.IsPlain) : ofChars? step.text.toList = some step := by
  obtain ⟨label, position⟩ := step
  have before (c : Char) (member : c ∈ label.toList) : decide (c ≠ '[') = true :=
    decide_eq_true fun same => plain.bracket (same ▸ member)
  cases position with
  | none =>
    have behind : label.toList.dropWhile (· ≠ '[') = [] := List.dropWhile_eq_nil_iff.2 before
    have all : label.toList.takeWhile (· ≠ '[') = label.toList := List.takeWhile_eq_self_iff.2 before
    change ofChars? label.toList = _
    rw [ofChars?, behind, all, String.ofList_toList]
  | some n =>
    have digits : (toString n).toList.all Char.isDigit = true :=
      List.all_eq_true.2 fun c member => Text.isDigit_of_mem_toString member
    rw [toList_text_numbered, ofChars?, List.takeWhile_append_of_pos before,
      List.dropWhile_append_of_pos before]
    simp only [ne_eq, not_true_eq_false, decide_false, Bool.false_eq_true, not_false_eq_true,
      List.takeWhile_cons_of_neg, List.dropWhile_cons_of_neg, List.append_nil, List.dropLast_concat,
      digits, and_self, if_true, String.ofList_toList]
    rw [Text.toList_toString, Nat.ofDigitChars_ten_toDigits]

/-- The steps of a path are found again in its text. -/
theorem read?_pathText (filled : steps ≠ []) (plain : ∀ step ∈ steps, step.IsPlain) :
    read? (pathText steps) = some steps := by
  have parts : Text.split '/' (pathText steps).toList =
      [] :: steps.map fun step => step.text.toList := by
    have joined : (pathText steps).toList =
        [] ++ '/' :: Text.joinWith ['/'] (steps.map fun step => step.text.toList) := by
      rw [Text.joinWith_eq_intercalate, pathText, String.toList_append, String.toList_intercalate,
        List.map_map]
      rfl
    rw [joined, Text.split_append List.not_mem_nil, Text.split_joinWith (by simpa using filled)]
    intro part member
    obtain ⟨step, among, rfl⟩ := List.mem_map.1 member
    exact slash_not_mem_text (plain step among)
  rw [read?, parts]
  exact Text.mapM_map_eq_some fun step member => ofChars?_text (plain step member)

end PathStep

namespace Arena

variable {a : Arena} {id outer : Nat}

/-- The children of a node whose kinds have a tag. -/
def labelled (a : Arena) (outer : Nat) (label : String) : List Nat :=
  (a.children outer).filter fun child => (a.kind child).tag = label

/-- Where a step leads from a node: to the child at its position among those of the kind, and
without a position to the only one of the kind. -/
def stepFrom? (a : Arena) (outer : Nat) (step : PathStep) : Option Nat :=
  match step.position, a.labelled outer step.label with
  | some (index + 1), level => level[index]?
  | none, [only] => some only
  | _, _ => none

/-- Where steps lead to, of which the first one is to the root. -/
def follow? (a : Arena) : List PathStep → Option Nat
  | [] => none
  | first :: rest =>
    if first = ⟨(a.kind root).tag, none⟩ then rest.foldlM a.stepFrom? root else none

/-- The node that a path leads to. -/
def nodeAtPath? (a : Arena) (path : String) : Option Nat := (PathStep.read? path).bind a.follow?

theorem steps_of_orphan (orphan : a.parent? id = none) : a.steps id = [⟨(a.kind id).tag, none⟩] := by
  rw [steps]
  split
  · rfl
  · rename_i above
    rw [orphan] at above
    cases above

theorem steps_of_parent (above : a.parent? id = some outer) :
    a.steps id = a.steps outer ++ [a.stepTo outer id] := by
  rw [steps]
  split
  · rename_i none
    rw [above] at none
    cases none
  · rename_i parent same
    rw [above] at same
    cases same
    rfl

theorem steps_ne_nil (a : Arena) (id : Nat) : a.steps id ≠ [] := by
  cases above : a.parent? id with
  | none => simp [steps_of_orphan above]
  | some outer => simp [steps_of_parent above]

theorem isPlain_of_mem_steps {step : PathStep} (member : step ∈ a.steps id) : step.IsPlain := by
  induction id using Nat.strongRecOn with
  | ind id ih =>
    cases above : a.parent? id with
    | none =>
      rw [steps_of_orphan above, List.mem_singleton] at member
      rw [member]
      exact .of_kind ..
    | some outer =>
      rw [steps_of_parent above, List.mem_append, List.mem_singleton] at member
      rcases member with further | rfl
      · exact ih outer (a.parent?_lt above) further
      · exact .of_kind ..

/-- The children with the tag of a kind are those of the kind. -/
theorem labelled_tag (a : Arena) (outer id : Nat) :
    a.labelled outer (a.kind id).tag = a.sameKind outer id :=
  List.filter_congr fun _ _ => decide_eq_decide.2 ⟨Kind.tag_injective, congrArg Kind.tag⟩

/-- The step to a child leads to the child. -/
theorem stepFrom?_stepTo (member : id ∈ a.children outer) :
    a.stepFrom? outer (a.stepTo outer id) = some id := by
  have among : id ∈ a.sameKind outer id := List.mem_filter.2 ⟨member, decide_eq_true rfl⟩
  have level : a.labelled outer (a.stepTo outer id).label = a.sameKind outer id :=
    a.labelled_tag outer id
  by_cases several : (a.sameKind outer id).length > 1
  · have numbered : (a.stepTo outer id).position = some ((a.sameKind outer id).idxOf id + 1) :=
      if_pos several
    rw [stepFrom?, numbered, level]
    exact List.getElem?_idxOf among
  · have unnumbered : (a.stepTo outer id).position = none := if_neg several
    have only : a.sameKind outer id = [id] := by
      obtain ⟨other, same⟩ := List.length_eq_one_iff.1
        (Nat.le_antisymm (Nat.not_lt.1 several) (List.length_pos_of_mem among))
      rw [same, List.mem_singleton] at among
      rw [same, among]
    rw [stepFrom?, unnumbered, level, only]

theorem follow?_concat {steps : List PathStep} (filled : steps ≠ []) (last : PathStep) :
    a.follow? (steps ++ [last]) = (a.follow? steps).bind fun outer => a.stepFrom? outer last := by
  cases steps with
  | nil => exact absurd rfl filled
  | cons first rest =>
    rw [List.cons_append, follow?, follow?]
    split
    · rw [List.foldlM_append]
      simp
    · rfl

end Arena

namespace Grammar

variable {g : Grammar}

/-- Following the steps to a node from the root leads to the node. -/
theorem Loaded.follow?_steps (loaded : g.Loaded) {id : Nat} (inside : id < g.size) :
    g.follow? (g.steps id) = some id := by
  -- The steps to the parent lead to it, and it comes before its child.
  induction id using Nat.strongRecOn with
  | ind id ih =>
    cases above : g.parent? id with
    | none =>
      have top : id = Arena.root := (loaded.parent?_eq_none_iff inside).1 above
      rw [Arena.steps_of_orphan above, top]
      exact if_pos rfl
    | some outer =>
      have lower := g.parent?_lt above
      rw [Arena.steps_of_parent above, Arena.follow?_concat (g.steps_ne_nil outer),
        ih outer lower (Nat.lt_trans lower inside), Option.bind_some]
      exact Arena.stepFrom?_stepTo (loaded.mem_children_iff.2 above)

theorem Loaded.nodeAtPath?_eq (loaded : g.Loaded) {id : Nat} (inside : id < g.size) :
    g.nodeAtPath? (g.path id) = some id := by
  have written : PathStep.read? (g.path id) = some (g.steps id) :=
    PathStep.read?_pathText (g.steps_ne_nil id) fun _ => Arena.isPlain_of_mem_steps
  rw [Arena.nodeAtPath?, written]
  exact loaded.follow?_steps inside

/-- Paths identify nodes: the steps of the path of a node lead from the root back to the node, and
no other node has the same path. -/
theorem path_identifies (loaded : g.Loaded) :
    (∀ id < g.size, g.nodeAtPath? (g.path id) = some id) ∧
      ∀ id < g.size, ∀ other < g.size, id ≠ other → g.path id ≠ g.path other := by
  refine ⟨fun id inside => loaded.nodeAtPath?_eq inside, fun id inside other within differ same => ?_⟩
  have here := loaded.nodeAtPath?_eq inside
  rw [same, loaded.nodeAtPath?_eq within] at here
  exact differ (Option.some.inj here).symm

/-- Two definitions next to each other, with one pattern in each. -/
def twoDefinitions : Xml.Document := .ofContent
  [.pattern .define "a" [.pattern .empty none []], .pattern .define "b" [.pattern .text none []]]

/-- The path into the second of two definitions leads to its pattern, and that into the first one
is a different one. -/
theorem path_into_second_definition : ∃ g : Grammar, g.Loaded ∧ g.size = 5 ∧
    g.path 4 = "/grammar/define[2]/text" ∧ g.nodeAtPath? (g.path 4) = some 4 ∧
    g.path 3 ≠ g.path 1 := by
  have size : (ofKept twoDefinitions rfl).size = 5 := by decide +kernel
  have loaded : (ofKept twoDefinitions rfl).Loaded := loaded_ofKept rfl rfl (by decide +kernel)
  have path : (ofKept twoDefinitions rfl).path 4 = "/grammar/define[2]/text" := by
    have root : (ofKept twoDefinitions rfl).parent? 0 = none := rfl
    have second : (ofKept twoDefinitions rfl).parent? 3 = some 0 := rfl
    have inside : (ofKept twoDefinitions rfl).parent? 4 = some 3 := rfl
    rw [Arena.path, Arena.steps_of_parent inside, Arena.steps_of_parent second,
      Arena.steps_of_orphan root]
    decide +kernel
  obtain ⟨leads, differ⟩ := path_identifies loaded
  exact ⟨_, loaded, size, path, leads 4 (by omega), differ 3 (by omega) 1 (by omega) (by decide)⟩

end Grammar

end RelaxDoc
