/-! The kinds of nodes a grammar is made of. -/
namespace RelaxDoc

/-- A kind of pattern, name class or grammar content. -/
inductive Kind where
  | element
  | attr
  | define
  | ref
  | parentRef
  | grammar
  | start
  | inclusion
  | externalRef
  | zeroOrMore
  | oneOrMore
  | list
  | group
  | optional
  | interleave
  | choice
  | data
  | text
  | empty
  | notAllowed
  | param
  | value
  | name
  | anyName
  | nsName
  | exclusion
  | div
  | mixed
  | documentation
  deriving DecidableEq, Repr

namespace Kind

/-- The local name that stands for a kind. -/
def tag : Kind → String
  | .element => "element"
  | .attr => "attribute"
  | .define => "define"
  | .ref => "ref"
  | .parentRef => "parentRef"
  | .grammar => "grammar"
  | .start => "start"
  | .inclusion => "include"
  | .externalRef => "externalRef"
  | .zeroOrMore => "zeroOrMore"
  | .oneOrMore => "oneOrMore"
  | .list => "list"
  | .group => "group"
  | .optional => "optional"
  | .interleave => "interleave"
  | .choice => "choice"
  | .data => "data"
  | .text => "text"
  | .empty => "empty"
  | .notAllowed => "notAllowed"
  | .param => "param"
  | .value => "value"
  | .name => "name"
  | .anyName => "anyName"
  | .nsName => "nsName"
  | .exclusion => "except"
  | .div => "div"
  | .mixed => "mixed"
  | .documentation => "documentation"

/-- The kinds that belong to RELAX NG itself. -/
def structural : List Kind :=
  [.element, .attr, .define, .ref, .parentRef, .grammar, .start, .inclusion, .externalRef,
   .zeroOrMore, .oneOrMore, .list, .group, .optional, .interleave, .choice, .data, .text,
   .empty, .notAllowed, .param, .value, .name, .anyName, .nsName, .exclusion, .div, .mixed]

/-- The structural kind that a local name stands for. -/
def ofTag? (tag : String) : Option Kind := structural.find? fun kind => kind.tag = tag

/-- A reference, which stands for the content of definitions. -/
def isReference : Kind → Bool
  | .ref | .parentRef => true
  | _ => false

/-- A kind that keeps its content as text and has no nodes below it. -/
def holdsText : Kind → Bool
  | .value | .param | .name | .documentation => true
  | _ => false

theorem mem_structural_iff (kind : Kind) : kind ∈ structural ↔ kind ≠ .documentation := by
  cases kind <;> decide

theorem find?_tag (kind : Kind) :
    (documentation :: structural).find? (fun other => other.tag = kind.tag) = some kind := by
  cases kind <;> rfl

theorem tag_injective {a b : Kind} (same : a.tag = b.tag) : a = b := by
  have found := find?_tag a
  rw [same, find?_tag b] at found
  exact (Option.some.inj found).symm

theorem ofTag?_tag {kind : Kind} (structural : kind ≠ .documentation) :
    ofTag? kind.tag = some kind := by
  cases kind with
  | documentation => exact absurd rfl structural
  | _ => rfl

theorem tag_of_ofTag? {tag : String} {kind : Kind} (found : ofTag? tag = some kind) :
    kind.tag = tag := by
  simpa using List.find?_some found

end Kind

end RelaxDoc
