import RelaxDoc.Grammar.Particle
import RelaxDoc.Limits
import RelaxDoc.Log

/-! What is met on the way through a schema document, element by element: which are kept
and how deep they stand, and which are skipped together with all that is in them. -/
namespace RelaxDoc

/-- An element met, kept at some depth or skipped. -/
inductive Visit where
  | kept (depth : Nat)
  | skipped (name : Xml.Name)
  deriving DecidableEq, Repr

namespace Visit

mutual

/-- What is met in a node at some depth. -/
def ofNode (depth : Nat) : Xml.Node → List Visit
  | .element tag children =>
    match Kind.ofName? tag.name with
    | none => [.skipped tag.name]
    | some kind => .kept depth :: if kind.holdsText then [] else ofNodes (depth + 1) children
  | .text _ => []
  | .comment _ => []
  | .instruction _ _ => []

/-- What is met in a list of nodes at some depth. -/
def ofNodes (depth : Nat) : List Xml.Node → List Visit
  | [] => []
  | node :: rest => ofNode depth node ++ ofNodes depth rest

end

/-- The message about a skipped element: the less foreign it looks, the graver. -/
def skipMessage (name : Xml.Name) : Message :=
  match name.uri with
  | none => ⟨.debug, s!"Skipping foreign element '{name.localName}'"⟩
  | some uri =>
    if uri = Namespace.structural then
      ⟨.warn, s!"Skipping unknown RELAX NG element '{name.localName}'"⟩
    else if Namespace.embedded.contains uri then
      ⟨.trace, s!"Skipping {name.localName} from {uri}"⟩
    else ⟨.debug, s!"Skipping foreign element '{name.localName}'"⟩

end Visit

/-- Refuses elements that stand too deep, and too many of them, when `count` are kept
already. The first to cross a limit decides, and its depth is looked at first. -/
def Limits.checkVisits (limits : Limits) : (count : Nat) → List Visit → Except Error Unit
  | _, [] => .ok ()
  | count, .skipped _ :: rest => limits.checkVisits count rest
  | count, .kept depth :: rest => do
    limits.checkDepth depth
    limits.checkNodes (count + 1)
    limits.checkVisits (count + 1) rest

/-- The messages about skipped elements, up to one that crosses a limit. -/
def Limits.skipMessages (limits : Limits) : (count : Nat) → List Visit → List Message
  | _, [] => []
  | count, .skipped name :: rest => Visit.skipMessage name :: limits.skipMessages count rest
  | count, .kept depth :: rest =>
    if depth > limits.maxDepth || count + 1 > limits.maxNodes then []
    else limits.skipMessages (count + 1) rest

end RelaxDoc
