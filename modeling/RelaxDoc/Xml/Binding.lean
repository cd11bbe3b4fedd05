import RelaxDoc.Xml.Fault
import RelaxDoc.Xml.Token
import RelaxDoc.Xml.Tree

/-! Start tags with their names expanded by the namespace declarations in force. -/
namespace RelaxDoc.Xml

/-- The namespace that the qualifier `xml` stands for everywhere. -/
def xmlUri : String := "http://www.w3.org/XML/1998/namespace"

/-- The namespace of declarations, which may not be declared itself. -/
def xmlnsUri : String := "http://www.w3.org/2000/xmlns/"

/-- An attribute with its value, before its name is expanded. -/
structure Assignment where
  name : WrittenName
  value : String
  deriving DecidableEq, Repr

/-- What an attribute declares: nothing, nothing of note, or a namespace. -/
inductive Declares where
  | nothing
  | known
  | binding (declaration : Declaration)
  deriving DecidableEq, Repr

/-- What an attribute declares. The qualifier `xml` may only have its own namespace,
which no other qualifier may have. -/
def Assignment.declares (a : Assignment) : Except Fault Declares :=
  if a.name.qualifier = "xmlns" then
    if a.value = xmlnsUri || (a.name.localName == "xml") != (a.value == xmlUri) then
      .error (.reservedNamespace a.value)
    else if a.value = xmlUri then .ok .known
    else .ok (.binding ⟨some a.name.localName, a.value⟩)
  else if a.name.localName = "xmlns" then
    if a.value = xmlUri || a.value = xmlnsUri then .error (.reservedNamespace a.value)
    else .ok (.binding ⟨none, a.value⟩)
  else .ok .nothing

/-- The declarations among attributes, and the other attributes. A qualifier may be
declared only once. -/
def splitAssignments : List Assignment → (declared : List Declaration) →
    Except Fault (List Declaration × List Assignment)
  | [], declared => .ok (declared, [])
  | a :: rest, declared => do
    match ← a.declares with
    | .known => splitAssignments rest declared
    | .nothing =>
      let (declared, others) ← splitAssignments rest declared
      return (declared, a :: others)
    | .binding d =>
      if d.qualifier.isSome && declared.any (fun e => e.qualifier = d.qualifier) then
        throw (.repeatedDeclaration a.name.localName)
      splitAssignments rest (declared ++ [d])

/-- The URI that a written qualifier stands for. -/
def qualifierUri (scope : Scope) (qualifier : String) : Except Fault String :=
  match scope.lookup (some qualifier) with
  | some uri => .ok uri
  | none => .error (.unknownQualifier qualifier)

/-- Refuses an element whose qualifier is the one that declarations have. -/
def checkQualifier (name : WrittenName) : Except Fault Unit :=
  if name.qualifier = "xmlns" then .error (.reservedNamespace xmlnsUri) else .ok ()

/-- The expanded name of an element; without a qualifier it is in the default namespace. -/
def elementName (scope : Scope) (name : WrittenName) : Except Fault Name := do
  if name.qualifier = "" then return ⟨scope.lookup none, name.localName⟩
  else return ⟨some (← qualifierUri scope name.qualifier), name.localName⟩

/-- The expanded name of an attribute; without a qualifier it is in no namespace. -/
def attributeName (scope : Scope) (name : WrittenName) : Except Fault Name := do
  if name.qualifier = "" then return ⟨none, name.localName⟩
  else if name.qualifier = "xml" then return ⟨some xmlUri, name.localName⟩
  else return ⟨some (← qualifierUri scope name.qualifier), name.localName⟩

/-- Attributes with expanded names, no two of one name. -/
def expandAssignments (scope : Scope) : List Assignment → (done : List Attribute) →
    Except Fault (List Attribute)
  | [], done => .ok done
  | a :: rest, done => do
    let name ← attributeName scope a.name
    if done.any (fun b => b.name = name) then throw (.repeatedAttribute a.name.localName)
    expandAssignments scope rest (done ++ [⟨name, a.value⟩])

/-- Declarations and attributes of start tags, as far as no tag has ended since. -/
structure Pending where
  declarations : List Declaration
  assignments : List Assignment
  deriving DecidableEq, Repr

namespace Pending

/-- No declarations and no attributes. -/
def none : Pending := ⟨[], []⟩

/-- Adds the attributes of a start tag. -/
def add (pending : Pending) (assignments : List Assignment) : Except Fault Pending := do
  let (declarations, others) ← splitAssignments assignments pending.declarations
  return ⟨declarations, pending.assignments ++ others⟩

/-- The attributes of an element inside `outer`. -/
def attributes (pending : Pending) (outer : Scope) : Except Fault (List Attribute) :=
  expandAssignments (outer.enter pending.declarations) pending.assignments []

/-- The tag of an element inside `outer`. -/
def tag (pending : Pending) (outer : Scope) (name : WrittenName) : Except Fault Tag := do
  let tagName ← elementName (outer.enter pending.declarations) name
  return ⟨tagName, ← pending.attributes outer, pending.declarations⟩

end Pending

end RelaxDoc.Xml
