import RelaxDoc.Xml.Token

/-! The outline of a document: the entities that its document type declares and the
tokens of its root element. -/
namespace RelaxDoc.Xml

/-- An entity with its replacement text. -/
structure Entity where
  name : String
  text : List Char
  deriving DecidableEq, Repr

/-- The replacement text of an entity. The first declaration counts. -/
def entityText? (entities : List Entity) (name : String) : Option (List Char) :=
  (entities.find? fun e => e.name = name).map Entity.text

/-- Entities and the tokens of the root element. -/
structure Outline where
  entities : List Entity
  tokens : List Token
  deriving DecidableEq, Repr

namespace Scanner

/-- Takes white space, comments and processing instructions. -/
def misc : (input : List Char) → Except Fault (Scanned Unit input)
  | '<' :: '!' :: '-' :: '-' :: rest => do
    let comment ← commentRest rest
    have := comment.le
    let more ← misc comment.rest
    return (comment.behind more).widen (Nat.le_add_right _ 4)
  | '<' :: '?' :: rest => do
    let instruction ← instructionRest rest
    have := instruction.le
    let more ← misc instruction.rest
    return (instruction.behind more).widen (Nat.le_add_right _ 2)
  | c :: rest =>
    if isSpace c then do
      let more ← misc rest
      return more.widen (Nat.le_succ _)
    else .ok ⟨(), c :: rest, Nat.le_refl _⟩
  | [] => .ok ⟨(), [], Nat.le_refl _⟩
termination_by input => input.length
decreasing_by all_goals simp only [List.length_cons]; omega

/-- Takes the white space behind a part of the XML declaration; there may be none
only at its end. -/
def declarationSpaces : Scanner Unit := do
  let space ← takeWhile isSpace
  let ends ← sees "?>"
  let exhausted := (← peek).isNone
  require (!space.isEmpty || ends || exhausted) (.expected "white space")

/-- Takes an attribute whose name begins with `start`, if one comes next. -/
def declarationPart (start : String) : Scanner Bool := do
  if ← sees start then
    let _ ← attributeFrom (← next)
    return true
  else return false

/-- Takes the XML declaration behind its opening: a version, then maybe an encoding
and a statement on standalone use, none of which matters here. -/
def declarationRest : Scanner Unit := do
  declarationSpaces
  require (← declarationPart "version") (.expected "the version")
  declarationSpaces
  if ← declarationPart "encoding" then declarationSpaces
  let _ ← declarationPart "standalone"
  spaces
  expect "?>"

/-- Takes an external identifier, if one comes next. -/
def externalId : Scanner Bool := do
  let known ← accept "SYSTEM"
  let named ← if known then pure false else accept "PUBLIC"
  if !(known || named) then return false
  someSpaces
  let _ ← quoted
  if named then
    someSpaces
    let _ ← quoted
  return true

/-- Takes the replacement text of an entity, which an external one does not have. A
general external entity may name a format. -/
def entityDefinition (general : Bool) : Scanner (Option (List Char)) := do
  match ← peek with
  | some '"' => some <$> quoted
  | some '\'' => some <$> quoted
  | _ =>
    require (← externalId) (.expected "the text of an entity")
    if general then
      spaces
      if ← accept "NDATA" then
        someSpaces
        let _ ← plainName
    return none

/-- Takes an entity declaration behind its opening. -/
def entityRest : Scanner (List Entity) := do
  someSpaces
  let parametric ← accept "%"
  if parametric then someSpaces
  let name ← plainName
  someSpaces
  let text ← entityDefinition (!parametric)
  spaces
  expect ">"
  return text.toList.map fun text => ⟨name, text⟩

/-- Takes a declaration of the document type behind its opening: the entities of an entity
declaration, nothing of the other kinds. -/
def declaredEntities : Scanner (List Entity) := do
  if ← accept "ENTITY" then entityRest
  else
    let isElement ← accept "ELEMENT"
    let isAttlist ← if isElement then pure true else accept "ATTLIST"
    let skipped ← if isAttlist then pure true else accept "NOTATION"
    require skipped .unknownMarkup
    let _ ← takeWhile (· != '>')
    expect ">"
    return []

/-- Takes the declarations of a document type up to its end. -/
def subset : (input : List Char) → Except Fault (Scanned (List Entity) input)
  | [] => .ok ⟨[], [], Nat.le_refl _⟩
  | ']' :: rest => do
    let close ← (do spaces; expect ">" : Scanner Unit) rest
    return ⟨[], close.rest, Nat.le_succ_of_le close.le⟩
  | '<' :: '!' :: '-' :: '-' :: rest => do
    let comment ← commentRest rest
    have := comment.le
    let more ← subset comment.rest
    return (comment.behind more).widen (Nat.le_add_right _ 4)
  | '<' :: '?' :: rest => do
    let instruction ← instructionRest rest
    have := instruction.le
    let more ← subset instruction.rest
    return (instruction.behind more).widen (Nat.le_add_right _ 2)
  | '<' :: '!' :: rest => do
    let declared ← declaredEntities rest
    have := declared.le
    let more ← subset declared.rest
    return ((declared.behind more).map (declared.value ++ ·)).widen (Nat.le_add_right _ 2)
  | c :: rest =>
    if isSpace c then do
      let more ← subset rest
      return more.widen (Nat.le_succ _)
    else .error .unknownMarkup
termination_by input => input.length
decreasing_by all_goals simp only [List.length_cons]; omega

/-- Takes a document type declaration behind its opening. -/
def doctypeRest : Scanner (List Entity) := do
  someSpaces
  let _ ← plainName
  spaces
  let _ ← externalId
  spaces
  match ← next with
  | '[' => subset
  | '>' => return []
  | _ => fail (.expected "'[' or '>'")

/-- Takes the root element behind its opening bracket. -/
def rootElement : Scanner (List Token) := do
  let name ← writtenName
  let (attributes, ending) ← tagRest false
  let inside ← if ending = .opened then content 0 else pure []
  return .startTag name attributes ending :: inside

/-- Takes a whole document behind its byte order mark. -/
def document : Scanner Outline := do
  if ← sees "<?xml " then
    expect "<?xml"
    declarationRest
  misc
  let entities ← if ← accept "<!DOCTYPE" then doctypeRest else pure []
  misc
  let tokens ← if ← accept "<" then rootElement else pure []
  misc
  require (← peek).isNone .unknownMarkup
  return ⟨entities, tokens⟩

end Scanner

/-- The text without a leading byte order mark. -/
def withoutMark : List Char → List Char
  | [] => []
  | c :: rest => if c.toNat = 0xFEFF then rest else c :: rest

/-- The outline of a document. -/
def Outline.ofText (text : String) : Except Fault Outline :=
  return (← Scanner.document (withoutMark text.toList)).value

end RelaxDoc.Xml
