import RelaxDoc.Xml.Binding
import RelaxDoc.Xml.Expansion

/-! Documents read from text: the tokens of the root element become a tree, with the text
of entities read as content where they are referred to. -/
namespace RelaxDoc.Xml

/-- An element whose end tag is still to come, with its content so far in reverse. -/
structure OpenElement where
  written : WrittenName
  tag : Tag
  scope : Scope
  content : List Node

/-- Where reading stands: the open elements, the innermost first; the finished elements that
are in none, the last first; whether the text at hand had a start tag yet; the count
of nested references; and what start tags that were cut leave to the next tag. -/
structure Progress where
  open? : List OpenElement
  finished : List Node
  started : Bool
  references : Nat
  pending : Pending

namespace Progress

/-- The start of a document. -/
def start : Progress := ⟨[], [], false, 0, .none⟩

/-- The declarations in force. -/
def scope (p : Progress) : Scope :=
  match p.open? with
  | [] => []
  | innermost :: _ => innermost.scope

/-- Adds a node to the innermost open element. -/
def add (p : Progress) (node : Node) : Progress :=
  match p.open? with
  | [] => { p with finished := node :: p.finished }
  | innermost :: outer =>
    { p with open? := { innermost with content := node :: innermost.content } :: outer }

/-- Ends the innermost open element, whose name must be the given one. What start tags that
were cut have left is read in the scope of this element, and dropped. -/
def finish (p : Progress) (name : WrittenName) : Except Fault Progress :=
  match p.open? with
  | [] => .error (.strayEndTag name.localName)
  | innermost :: outer => do
    if !p.started then throw (.strayEndTag name.localName)
    let _ ← p.pending.attributes innermost.scope
    if innermost.written ≠ name then throw (.mismatchedEndTag name.localName)
    return ({ p with open? := outer, pending := .none } : Progress).add
      (.element innermost.tag innermost.content.reverse)

/-- Begins an element with these attributes, behind those that are pending. -/
def begin (p : Progress) (name : WrittenName) (assignments : List Assignment)
    (ending : TagEnd) : Except Fault Progress := do
  checkQualifier name
  let pending ← p.pending.add assignments
  if ending = .cut then return { p with started := true, pending := pending }
  let tag ← pending.tag p.scope name
  let p := { p with started := true, pending := .none }
  if ending = .closed then return p.add (.element tag [])
  else return { p with open? := ⟨name, tag, p.scope.enter tag.declarations, []⟩ :: p.open? }

end Progress

/-- The values of written attributes, with the count of references carried along. -/
def assign (entities : List Entity) (depth : Nat) :
    List WrittenAttribute → Nat → Except Fault (List Assignment × Nat)
  | [], count => .ok ([], count)
  | a :: rest, count => do
    let (value, count) ← expandValue entities depth a.value count
    let (more, count) ← assign entities depth rest count
    return (⟨a.name, String.ofList value⟩ :: more, count)

/-- Reads a segment of character data. -/
def readSegment (entities : List Entity) (nested : Bool)
    (inner : List Token → Progress → Except Fault Progress) (p : Progress) :
    Segment → Except Fault Progress
  | .text content => .ok (p.add (.text (String.ofList content)))
  | .entity name => do
    let count ← countReference nested p.references
    match entityText? entities name with
    | none => throw (.unknownEntity name)
    | some text =>
      let tokens ← Scanner.content 0 text
      let after ← inner tokens.value { p with started := false, references := count }
      return { after with
        started := p.started
        references := if nested then after.references else 0 }

/-- Reads a token where references may nest `depth` levels deeper. -/
def readToken (entities : List Entity) (depth : Nat)
    (inner : List Token → Progress → Except Fault Progress) (p : Progress) :
    Token → Except Fault Progress
  | .comment content => .ok (p.add (.comment content))
  | .instruction target content => .ok (p.add (.instruction target content))
  | .verbatim raw =>
    (segments true false [] (raw.map .plain)).foldlM (readSegment entities true inner) p
  | .characters raw => do
    let nested := decide (depth < maxNesting)
    (segments nested false [] (← pieces raw)).foldlM (readSegment entities nested inner) p
  | .endTag name => p.finish name
  | .startTag name attributes ending => do
    let (assignments, count) ← assign entities depth attributes p.references
    ({ p with references := count } : Progress).begin name assignments ending

/-- Reads tokens where references may nest `depth` levels deeper. -/
def readTokens (entities : List Entity) : Nat → List Token → Progress → Except Fault Progress
  | 0, tokens, p =>
    tokens.foldlM (readToken entities 0 fun _ _ => .error .entitiesTooDeep) p
  | depth + 1, tokens, p =>
    tokens.foldlM (readToken entities (depth + 1) (readTokens entities depth)) p

/-- The first element in a list of nodes as a document. -/
def Document.ofNodes? (nodes : List Node) : Option Document :=
  nodes.findSome? fun
    | .element tag children => some ⟨tag, children⟩
    | _ => none

/-- The document that a text writes. -/
def Document.ofText (text : String) : Except Fault Document := do
  let outline ← Outline.ofText text
  let p ← readTokens outline.entities maxNesting outline.tokens .start
  if !p.open?.isEmpty then throw .unclosedElement
  match Document.ofNodes? p.finished.reverse with
  | some document => return document
  | none => throw .noRootElement

end RelaxDoc.Xml
