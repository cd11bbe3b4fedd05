import RelaxDoc.Naming
import RelaxDoc.Record.Basic
import RelaxDoc.Search.Descent

/-! The type of an attribute, from the patterns that its content leads to. -/
namespace RelaxDoc

/-- The pattern that decides on the type of an attribute. `nothing` is an attribute
without content. -/
inductive TypeSource where
  | nothing
  | data (id : Nat)
  | text
  | choice (id : Nat)
  | value (id : Nat)
  | unknown
  deriving DecidableEq, Repr

/-- The kinds that were searched for, in this order, until a source was found. -/
def TypeSource.searched : TypeSource → List Kind
  | .nothing => []
  | .data _ => [.data]
  | .text => [.data, .text]
  | .choice _ => [.data, .text, .choice]
  | .value _ | .unknown => [.data, .text, .choice, .value]

namespace Grammar

/-- Whether a node has content other than documentation. -/
def hasContent (g : Grammar) (id : Nat) : Bool :=
  (g.contentChildren id).any fun child => g.kind child ≠ .documentation

/-- The pattern that decides on the type of an attribute: a datatype before text, text before
alternatives, alternatives before a single value. -/
def typeSource (g : Grammar) (id : Nat) : TypeSource :=
  if !g.hasContent id then .nothing
  else match g.firstBelow? id .data with
    | some data => .data data
    | none =>
      if (g.firstBelow? id .text).isSome then .text
      else match g.firstBelow? id .choice with
        | some choice => .choice choice
        | none =>
          match g.firstBelow? id .value with
          | some value => .value value
          | none => .unknown

/-- The parameters of a datatype. -/
def params (g : Grammar) (id : Nat) : List Param :=
  ((g.children id).filter fun child => g.kind child = .param).map fun child =>
    ⟨(g.node child).name?.getD "", (g.node child).content⟩

/-- The datatype of a `data` pattern. -/
def datatype (g : Grammar) (id : Nat) : Datatype :=
  ⟨((g.node id).attribute? "type").getD "", g.description id, g.params id⟩

/-- The value of a `value` pattern, described by the remark behind it. -/
def enumValue (g : Grammar) (id : Nat) : EnumValue :=
  ⟨(g.node id).content, ((g.node id).remark.map g.lineOf).getD ""⟩

/-- The type of an attribute. -/
def attributeType (g : Grammar) (id : Nat) : AttributeType :=
  match g.typeSource id with
  | .nothing | .text => .text
  | .data data => .primitive (g.datatype data)
  | .choice choice => .enumeration ((g.descend choice .value).map g.enumValue)
  | .value value => .enumeration [g.enumValue value]
  | .unknown => .unknown

/-- The findings of all searches for the type of an attribute. -/
def typeFindings (g : Grammar) (id : Nat) : List Finding :=
  (g.typeSource id).searched.flatMap (g.findings id) ++
    match g.typeSource id with
    | .choice choice => g.findings choice .value
    | _ => []

end Grammar

end RelaxDoc
