import RelaxDoc.Xml.Scanner

/-! The markup of a document: names, tags and the other tokens, with references and
namespace declarations still as they are written. -/
namespace RelaxDoc.Xml

/-- A name as it is written: the part before the colon and the part behind it. -/
structure WrittenName where
  qualifier : String
  localName : String
  deriving DecidableEq, Repr

/-- An attribute as it is written. -/
structure WrittenAttribute where
  name : WrittenName
  value : List Char
  deriving DecidableEq, Repr

/-- How a start tag ends. `cut` is a tag that the text ends in. -/
inductive TagEnd where
  | opened
  | closed
  | cut
  deriving DecidableEq, Repr

/-- One piece of content. -/
inductive Token where
  | startTag (name : WrittenName) (attributes : List WrittenAttribute) (ending : TagEnd)
  | endTag (name : WrittenName)
  | characters (raw : List Char)
  | verbatim (raw : List Char)
  | comment (content : String)
  | instruction (target content : String)
  deriving DecidableEq, Repr

/-- Splits a name at its only colon. Neither part may begin with a character that no
name begins with, and the part behind the colon may not be empty. -/
def WrittenName.ofChars? (cs : List Char) : Option WrittenName :=
  let before := cs.takeWhile (· != ':')
  let (qualifier, localName) :=
    match cs.dropWhile (· != ':') with
    | [] => ([], before)
    | _ :: behind => (before, behind)
  if localName.contains ':' then none
  else if !(qualifier.head?.all isNameStart && localName.head?.any isNameStart) then none
  else some ⟨String.ofList qualifier, String.ofList localName⟩

namespace Scanner

/-- Takes the rest of a name with at most one colon that begins with `first`. -/
def writtenNameFrom (first : Char) : Scanner WrittenName := do
  require (isNameChar first) .malformedName
  let more ← takeWhile isNameChar
  match WrittenName.ofChars? (first :: more) with
  | some name => return name
  | none => fail .malformedName

/-- Takes a name with at most one colon. -/
def writtenName : Scanner WrittenName := do
  writtenNameFrom (← next)

/-- Takes a name in which colons are letters. -/
def plainName : Scanner String := do
  let first ← next
  require (isNameStart first) .malformedName
  return String.ofList (first :: (← takeWhile isNameChar))

/-- Takes an equals sign with white space around it and the quoted value behind it. -/
def attributeValue : Scanner (List Char) := do
  spaces
  expect "="
  spaces
  let value ← quoted
  require (!value.contains '<') .angleInValue
  match value.find? (fun c => !isLegal c) with
  | some c => fail (.illegalCharacter c)
  | none => return value

/-- Takes the rest of an attribute that begins with `first`. -/
def attributeFrom (first : Char) : Scanner WrittenAttribute := do
  let name ← writtenNameFrom first
  return ⟨name, ← attributeValue⟩

/-- Takes the attributes and the end of a start tag. Each attribute comes after white
space, which `spaced` says was just taken. -/
def tagRest (spaced : Bool) : (input : List Char) →
    Except Fault (Scanned (List WrittenAttribute × TagEnd) input)
  | [] => if spaced then .error .unexpectedEnd else .ok ⟨([], .cut), [], Nat.le_refl _⟩
  | '>' :: rest => .ok ⟨([], .opened), rest, Nat.le_succ _⟩
  | '/' :: rest =>
    match rest with
    | '>' :: rest => .ok ⟨([], .closed), rest, Nat.le_add_right _ 2⟩
    | _ => .error (.expected "'>'")
  | c :: rest =>
    if isSpace c then do
      let more ← tagRest true rest
      return more.widen (Nat.le_succ _)
    else if spaced then do
      let given ← attributeFrom c rest
      have := given.le
      let more ← tagRest false given.rest
      return ((given.behind more).map fun (others, ending) =>
        (given.value :: others, ending)).widen (Nat.le_succ _)
    else .error (.expected "white space")
termination_by input => input.length
decreasing_by all_goals simp only [List.length_cons]; omega

/-- Takes a comment behind its opening. -/
def commentRest : Scanner Token := do
  let content ← upTo "-->"
  require ((cutAt ['-', '-'] content).isNone && content.getLast? != some '-') .malformedComment
  return .comment (String.ofList content)

/-- Takes a processing instruction behind its opening. -/
def instructionRest : Scanner Token := do
  require (!(← sees "xml ")) .strayDeclaration
  let target ← plainName
  spaces
  return .instruction target (String.ofList (← upTo "?>"))

/-- Takes the markup behind an opening angle bracket. -/
def markup : Scanner Token := do
  match ← next with
  | '!' =>
    if ← accept "--" then commentRest
    else if ← accept "[CDATA[" then return .verbatim (← upTo "]]>")
    else fail .unknownMarkup
  | '?' => instructionRest
  | '/' =>
    let name ← writtenName
    spaces
    expect ">"
    return .endTag name
  | first =>
    let name ← writtenNameFrom first
    let (attributes, ending) ← tagRest false
    return .startTag name attributes ending

/-- Takes content up to the end tag that matches no start tag in it, or up to the end
of the text. `level` counts the start tags that wait for their end tags. -/
def content (level : Nat) : (input : List Char) → Except Fault (Scanned (List Token) input)
  | [] => .ok ⟨[], [], Nat.le_refl _⟩
  | '<' :: rest => do
    let token ← markup rest
    have := token.le
    let stop := match token.value with
      | .endTag _ => level == 0
      | _ => false
    if stop then
      return (token.map ([·])).widen (Nat.le_succ _)
    let level := match token.value with
      | .endTag _ => level - 1
      | .startTag _ _ .opened => level + 1
      | _ => level
    let more ← content level token.rest
    return ((token.behind more).map (token.value :: ·)).widen (Nat.le_succ _)
  | c :: rest => do
    let run := c :: rest.takeWhile (· != '<')
    match run.find? (fun c => !isLegal c) with
    | some c => .error (.illegalCharacter c)
    | none => .ok ()
    if (cutAt [']', ']', '>'] run).isSome then
      throw .sectionEndInText
    have shorter := (List.dropWhile_sublist (l := rest) (· != '<')).length_le
    let more ← content level (rest.dropWhile (· != '<'))
    return (more.map (.characters run :: ·)).widen (Nat.le_succ_of_le shorter)
termination_by input => input.length
decreasing_by all_goals simp only [List.length_cons]; omega

end Scanner

end RelaxDoc.Xml
