import RelaxDoc.Grammar.Definitions
import RelaxDoc.Text.Lines

/-! Names, namespaces and descriptions of element and attribute patterns. -/
namespace RelaxDoc

/-- The name of what matches any name. -/
def anyName : String := "anyName"

namespace Arena

/-- The name class of a node, if it is a single name. -/
def nameNode? (a : Arena) (id : Nat) : Option Nat :=
  (a.nameClass? id).filter fun child => a.kind child = .name

/-- The name written on a pattern: its `name` attribute, or else the text of its
single name. -/
def declaredName? (a : Arena) (id : Nat) : Option String :=
  (a.node id).name? <|> (a.nameNode? id).map fun child => (a.node child).content

/-- The name an element goes by: the declared one, or that of the nearest definition
around it. -/
def elementName (a : Arena) (id : Nat) : String :=
  match a.declaredName? id with
  | some name => name
  | none => ((a.enclosing? id .define).bind fun define => (a.node define).name?).getD anyName

/-- The name an attribute goes by. -/
def attributeName (a : Arena) (id : Nat) : String := (a.declaredName? id).getD anyName

/-- The namespace that the qualifier of the declared name stands for where it is
written. -/
def qualifiedNamespace? (a : Arena) (id : Nat) : Option String :=
  (a.declaredName? id).bind fun name =>
    resolveQualified name (a.scopes ((a.nameNode? id).getD id))

/-- The `ns` attribute of a node. -/
def ns? (a : Arena) (id : Nat) : Option String := (a.node id).attribute? "ns"

/-- The nearest `ns` attribute that applies to a pattern: on its single name, on itself,
and for an element on its ancestors. -/
def nearestNs? (a : Arena) (id : Nat) : Option String :=
  (a.nameNode? id).bind a.ns? <|> a.ns? id <|>
    if a.kind id = .element then (a.ancestors id).findSome? a.ns? else none

/-- The namespace of a pattern. A qualifier that resolves decides before `ns`, and an
empty `ns` means no namespace. -/
def namespaceOf? (a : Arena) (id : Nat) : Option String :=
  match a.qualifiedNamespace? id with
  | some uri => some uri
  | none => (a.nearestNs? id).filter fun uri => uri ≠ ""

/-- The text of a node as a single line. -/
def lineOf (a : Arena) (id : Nat) : String := Text.singleLine (a.node id).content

/-- The description of a node: its first documentation. -/
def description (a : Arena) (id : Nat) : String :=
  ((a.documentation? id).map a.lineOf).getD ""

end Arena

end RelaxDoc
