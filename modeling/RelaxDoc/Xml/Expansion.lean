import RelaxDoc.Xml.Outline
import RelaxDoc.Xml.Reference

/-! The values that attributes and character data stand for: references replaced and
line ends normalised. References to entities may nest only so deep, and an outermost one
may lead to only so many others. -/
namespace RelaxDoc.Xml

/-- How deep references to entities may nest. -/
def maxNesting : Nat := 10

/-- How many references an outermost reference may lead to. -/
def maxReferences : Nat := 255

/-- The count of references after one more, of which only nested ones count. -/
def countReference (nested : Bool) (count : Nat) : Except Fault Nat :=
  if !nested then .ok count
  else if count < maxReferences then .ok (count + 1)
  else .error .tooManyReferences

/-- A character of an attribute value, white space as a space. -/
def spaced (c : Char) : Char := if c == '\n' || c == '\r' || c == '\t' then ' ' else c

/-- The value of an attribute from its pieces. A carriage return before a line feed is
dropped; a character given by a reference outside of entities stays as it is, and inside
of one may not be an opening angle bracket. -/
def valueOf (nested : Bool) (entities : List Entity)
    (inner : List Char → Nat → Except Fault (List Char × Nat)) :
    List Piece → Nat → Except Fault (List Char × Nat)
  | [], count => .ok ([], count)
  | .plain c :: rest, count => do
    let (more, count) ← valueOf nested entities inner rest count
    if c == '\r' && rest.head? == some (.plain '\n') then return (more, count)
    else return (spaced c :: more, count)
  | .given c :: rest, count => do
    if nested && c == '<' then throw .angleInValue
    let (more, count) ← valueOf nested entities inner rest count
    return ((if nested then spaced c else c) :: more, count)
  | .entity name :: rest, count => do
    let count ← countReference nested count
    match entityText? entities name with
    | none => throw (.unknownEntity name)
    | some text =>
      let (value, count) ← inner text count
      let (more, count) ← valueOf nested entities inner rest (if nested then count else 0)
      return (value ++ more, count)

/-- The value of a written attribute where references may nest `depth` levels deeper. -/
def expandValue (entities : List Entity) :
    Nat → List Char → Nat → Except Fault (List Char × Nat)
  | 0, text, count => do
    valueOf true entities (fun _ _ => .error .entitiesTooDeep) (← pieces text) count
  | depth + 1, text, count => do
    valueOf (depth + 1 < maxNesting) entities (expandValue entities depth) (← pieces text) count

/-- A stretch of character data without references, or an entity. -/
inductive Segment where
  | text (content : List Char)
  | entity (name : String)
  deriving DecidableEq, Repr

/-- Appends a character to character data, given in reverse, so that a carriage return,
with a line feed behind it or not, becomes a line feed. -/
def appendText (c : Char) (last : Bool) : List Char → List Char
  | '\r' :: before =>
    if last && c == '\r' then '\n' :: '\n' :: before
    else if c == '\n' then '\n' :: before
    else c :: '\n' :: before
  | before => if last && c == '\r' then '\n' :: before else c :: before

/-- Character data given in reverse as a segment, if there is any. -/
def flushed : List Char → List Segment
  | [] => []
  | text => [.text text.reverse]

/-- The segments of character data. Outside of entities a character given by a reference
stays as it is, and so does the one behind it. -/
def segments (nested : Bool) : (verbatim : Bool) → (before : List Char) → List Piece →
    List Segment
  | _, before, [] => flushed before
  | verbatim, before, .plain c :: rest =>
    if verbatim then segments nested false (c :: before) rest
    else segments nested false (appendText c rest.isEmpty before) rest
  | verbatim, before, .given c :: rest =>
    if nested then segments nested verbatim (appendText c rest.isEmpty before) rest
    else segments nested true (c :: before) rest
  | _, before, .entity name :: rest => flushed before ++ .entity name :: segments nested false [] rest

end RelaxDoc.Xml
