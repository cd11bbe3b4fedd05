import RelaxDoc.Grammar.Arena

/-! Location paths: the steps that lead from the root to a node, as kinds and positions. -/
namespace RelaxDoc

/-- A step of a path: a kind, and the position among the siblings of that kind if there
are several. -/
structure PathStep where
  label : String
  position : Option Nat
  deriving DecidableEq, Repr

/-- The text of a step. -/
def PathStep.text (step : PathStep) : String :=
  match step.position with
  | some n => s!"{step.label}[{n}]"
  | none => step.label

/-- The text of a path. -/
def pathText (steps : List PathStep) : String :=
  "/" ++ "/".intercalate (steps.map PathStep.text)

/-- The step to the `index`th of `count` siblings of one kind. -/
def PathStep.among (label : String) (index count : Nat) : PathStep :=
  ⟨label, if count > 1 then some (index + 1) else none⟩

namespace Arena

/-- The children of `parent` that are of the kind of `id`. -/
def sameKind (a : Arena) (parent id : Nat) : List Nat :=
  (a.children parent).filter fun child => a.kind child = a.kind id

/-- The step from a parent to its child. -/
def stepTo (a : Arena) (parent id : Nat) : PathStep :=
  .among (a.kind id).tag ((a.sameKind parent id).idxOf id) (a.sameKind parent id).length

/-- The steps from the root to a node. -/
def steps (a : Arena) (id : Nat) : List PathStep :=
  match found : a.parent? id with
  | none => [⟨(a.kind id).tag, none⟩]
  | some parent =>
    have := a.parent?_lt found
    a.steps parent ++ [a.stepTo parent id]
termination_by id

/-- The location path of a node. -/
def path (a : Arena) (id : Nat) : String := pathText (a.steps id)

end Arena

end RelaxDoc
