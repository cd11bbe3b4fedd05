import RelaxDoc.Proofs.Text.Parts
import RelaxDoc.Proofs.Xml.Escaping

/-! Reading HTML character by character: which tags a text has and which characters stand around
them. A bracket in a quoted value ends no tag, and a reference is left as it is written. -/
namespace RelaxDoc.Html

/-- An attribute of a tag; its value is as written between the quotes. -/
structure Attribute where
  name : List Char
  value : List Char
  deriving DecidableEq, Repr

/-- A tag by its name, which for an end tag begins with a slash, and its attributes. -/
structure Tag where
  name : List Char
  attributes : List Attribute
  deriving DecidableEq, Repr

/-- The tag with one attribute more. -/
def Tag.add (tag : Tag) (name value : List Char) : Tag :=
  { tag with attributes := tag.attributes ++ [⟨name, value⟩] }

/-- A character outside of tags, or a tag. -/
inductive Token where
  | character (c : Char)
  | markup (tag : Tag)
  deriving DecidableEq, Repr

/-- Where reading stands: outside of tags, in the name of a tag, in front of an attribute, in the name
of one or behind it, in front of its value, or in the value with quotes or without. -/
inductive State where
  | text
  | tagName (name : List Char)
  | inTag (tag : Tag)
  | attributeName (tag : Tag) (name : List Char)
  | behindName (tag : Tag) (name : List Char)
  | beforeValue (tag : Tag) (name : List Char)
  | quoted (tag : Tag) (name : List Char) (quote : Char) (value : List Char)
  | unquoted (tag : Tag) (name : List Char) (value : List Char)
  deriving DecidableEq, Repr

/-- White space in a tag. -/
def isSpace (c : Char) : Bool := c ∈ [' ', '\t', '\n', '\r', '\x0c']

namespace State

/-- Where reading stands behind one more character, and what the character completes. Names of tags
and attributes are the same in capitals. -/
def next : State → Char → State × List Token
  | .text, c => if c = '<' then (.tagName [], []) else (.text, [.character c])
  | .tagName name, c =>
    if c = '>' then (.text, [.markup ⟨name, []⟩])
    else if isSpace c then (.inTag ⟨name, []⟩, [])
    else (.tagName (name ++ [c.toLower]), [])
  | .inTag tag, c =>
    if c = '>' then (.text, [.markup tag])
    else if isSpace c || c == '/' then (.inTag tag, [])
    else (.attributeName tag [c.toLower], [])
  | .attributeName tag name, c =>
    if c = '>' then (.text, [.markup (tag.add name [])])
    else if c = '=' then (.beforeValue tag name, [])
    else if isSpace c then (.behindName tag name, [])
    else if c = '/' then (.inTag (tag.add name []), [])
    else (.attributeName tag (name ++ [c.toLower]), [])
  | .behindName tag name, c =>
    if c = '>' then (.text, [.markup (tag.add name [])])
    else if c = '=' then (.beforeValue tag name, [])
    else if isSpace c then (.behindName tag name, [])
    else if c = '/' then (.inTag (tag.add name []), [])
    else (.attributeName (tag.add name []) [c.toLower], [])
  | .beforeValue tag name, c =>
    if c = '>' then (.text, [.markup (tag.add name [])])
    else if c = '"' ∨ c = '\'' then (.quoted tag name c [], [])
    else if isSpace c then (.beforeValue tag name, [])
    else (.unquoted tag name [c], [])
  | .quoted tag name quote value, c =>
    if c = quote then (.inTag (tag.add name value), [])
    else (.quoted tag name quote (value ++ [c]), [])
  | .unquoted tag name value, c =>
    if c = '>' then (.text, [.markup (tag.add name value)])
    else if isSpace c then (.inTag (tag.add name value), [])
    else (.unquoted tag name (value ++ [c]), [])

/-- Where reading stands behind a text, and what the text completes. -/
def read (state : State) : List Char → State × List Token
  | [] => (state, [])
  | c :: rest =>
    let (there, tokens) := state.next c
    let (last, more) := there.read rest
    (last, tokens ++ more)

variable {state : State}

theorem read_cons (c : Char) (rest : List Char) : state.read (c :: rest) =
    (((state.next c).1.read rest).1, (state.next c).2 ++ ((state.next c).1.read rest).2) := rfl

theorem read_append {left right : List Char} {there last : State} {tokens more : List Token}
    (first : state.read left = (there, tokens)) (second : there.read right = (last, more)) :
    state.read (left ++ right) = (last, tokens ++ more) := by
  induction left generalizing state tokens with
  | nil =>
    cases first
    exact second
  | cons c rest ih =>
    rw [read_cons] at first
    cases first
    rw [List.cons_append, read_cons, ih rfl, List.append_assoc]

/-- A text without an angle bracket has no tag. -/
theorem read_text {cs : List Char} (plain : '<' ∉ cs) :
    text.read cs = (text, cs.map .character) := by
  induction cs with
  | nil => rfl
  | cons c rest ih =>
    obtain ⟨here, behind⟩ := not_or.1 (mt List.mem_cons.2 plain)
    have same : text.next c = (text, [.character c]) := if_neg (Ne.symm here)
    rw [read_cons, same, ih behind]
    rfl

theorem next_quote (tag : Tag) (name value : List Char) (quote : Char) :
    (quoted tag name quote value).next quote = (.inTag (tag.add name value), []) := by
  rw [next, if_pos rfl]

theorem next_bracket (tag : Tag) : (inTag tag).next '>' = (.text, [.markup tag]) := by
  rw [next, if_pos rfl]

/-- A quoted value goes on up to the next of its quotes. -/
theorem read_quoted {tag : Tag} {name value cs : List Char} {quote : Char} (inside : quote ∉ cs) :
    (quoted tag name quote value).read cs = (quoted tag name quote (value ++ cs), []) := by
  induction cs generalizing value with
  | nil => rw [List.append_nil, read]
  | cons c rest ih =>
    obtain ⟨here, behind⟩ := not_or.1 (mt List.mem_cons.2 inside)
    have same : (quoted tag name quote value).next c = (quoted tag name quote (value ++ [c]), []) :=
      if_neg (Ne.symm here)
    rw [read_cons, same, ih behind, List.append_assoc]
    rfl

end State

/-- The links of a tag as they are written. -/
def Tag.links (tag : Tag) : List (List Char) :=
  (tag.attributes.filter fun a => a.name = ['h', 'r', 'e', 'f']).map Attribute.value

/-- The links of a token. -/
def Token.links : Token → List (List Char)
  | .character _ => []
  | .markup tag => tag.links

/-- The links of a page as they are written, in order. -/
def links (page : String) : List (List Char) :=
  (State.text.read page.toList).2.flatMap Token.links

/-- The text that is written, if all references in it are to characters. -/
def unescaped? (written : List Char) : Option String :=
  (Xml.pieces written).toOption.bind fun given =>
    (given.mapM Xml.Piece.char?).map String.ofList

theorem unescaped?_escapedChars (text : String) :
    unescaped? (Xml.escapedChars text) = some text := by
  have undo : (text.toList.map Xml.escapedPiece).mapM Xml.Piece.char? = some text.toList :=
    Text.mapM_map_eq_some fun c _ => Xml.char?_escapedPiece c
  rw [unescaped?, Xml.pieces_escapedChars, Except.toOption, Option.bind_some, undo,
    Option.map_some, String.ofList_toList]

end RelaxDoc.Html
