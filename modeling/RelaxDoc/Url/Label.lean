import RelaxDoc.Text.Direction
import RelaxDoc.Text.Joining
import RelaxDoc.Text.Mark
import RelaxDoc.Text.Normal
import RelaxDoc.Url.Folding
import RelaxDoc.Url.Percent
import RelaxDoc.Url.Punycode

/-! The labels of host names: in any script, and in ASCII. -/
namespace RelaxDoc.Url

/-- The ASCII characters that no host name may hold. -/
def isForbidden (c : Char) : Bool :=
  c.toNat == 0 || ['\t', '\n', '\r', ' ', '#', '/', ':', '<', '>', '?', '@', '[', '\\', ']', '^',
    '|'].contains c

/-- The ASCII characters that no label may hold. -/
def isDenied (c : Char) : Bool := isForbidden c || c.toNat < 0x20 || c.toNat == 0x7F || c == '%'

/-- The joiner and the non-joiner stand behind a sign that takes a vowel; the non-joiner may also
stand between letters that would join. `before` has the characters before it in reverse. -/
def isJoinerFit (before : List Char) (joiner : Char) (behind : List Char) : Bool :=
  before.head?.any Text.isVirama || (joiner.toNat == 0x200C &&
    (before.dropWhile Text.isTransparent).head?.any Text.joinsBehind &&
    (behind.dropWhile Text.isTransparent).head?.any Text.joinsBefore)

/-- Whether each joiner in a text is where it may be. -/
def areJoinersFit : (before : List Char) → List Char → Bool
  | _, [] => true
  | before, c :: behind =>
    (!(c.toNat == 0x200C || c.toNat == 0x200D) || isJoinerFit before c behind) &&
      areJoinersFit (c :: before) behind

/-- A label with a letter or a digit that goes from right to left. -/
def hasRightToLeft (label : List Char) : Bool :=
  label.any fun c => Text.direction c == .rightToLeft || Text.direction c == .arabicNumber

/-- Whether a label begins with a letter, holds nothing that goes against its direction, ends
with a letter or a digit, and has digits of one kind. -/
def isDirected (label : List Char) : Bool :=
  match label.map Text.direction with
  | [] => true
  | first :: rest =>
    let last := (rest.reverse.dropWhile (· == .mark)).head?
    match first with
    | .leftToRight =>
      rest.all (fun d => d != .rightToLeft && d != .arabicNumber) &&
        last.all (fun d => d == .leftToRight || d == .europeanNumber)
    | .rightToLeft =>
      rest.all (· != .leftToRight) &&
        last.all (fun d => d == .rightToLeft || d == .europeanNumber || d == .arabicNumber) &&
        !(rest.contains .europeanNumber && rest.contains .arabicNumber)
    | _ => false

/-- What a label in ASCII form begins with. -/
def asciiMark : List Char := ['x', 'n', '-', '-']

/-- A label in its own script. A label in ASCII form must stand for what it would be folded to;
it has a digit behind its last hyphen. -/
def ownScript? (label : List Char) : Option (List Char) :=
  if !asciiMark.isPrefixOf label then some label
  else
    let code := label.drop asciiMark.length
    if code.length > 2000 || code.getLast?.all (· == '-') then none
    else do
      let text ← Punycode.decode? code
      if text.all (fun c => folded? c == some [c]) && Text.normalForm text = text then
        return text
      else none

/-- The label that a folded text writes, in its own script. -/
def label? (text : List Char) : Option (List Char) := do
  let label ← ownScript? text
  if label.any isDenied || label.head?.any Text.isMark || !areJoinersFit [] label then none
  else if label.length > 1000 && label.any (fun c => c.toNat ≥ 0x80) then none
  else return label

/-- The ASCII form of a label. -/
def asciiLabel (label : List Char) : List Char :=
  if label.all fun c => c.toNat < 0x80 then label
  else asciiMark ++ Punycode.encode label

/-- The ASCII form of the host name that a text writes. If one label goes from right to left,
the direction of each is checked. -/
def asciiName? (text : List Char) : Option (List Char) := do
  let folded ← foldedText? text
  let labels ← (Text.split '.' (Text.normalForm folded)).mapM label?
  if labels.any hasRightToLeft && !labels.all isDirected then none
  else return Text.joinWith ['.'] (labels.map asciiLabel)

end RelaxDoc.Url
