/-! Writing XML: escaped texts, and markup with or without indentation. -/
namespace RelaxDoc.Xml

/-- A character as it stands in text and in attribute values. -/
def escapedChar (c : Char) : List Char :=
  if c = '<' then ['&', 'l', 't', ';']
  else if c = '>' then ['&', 'g', 't', ';']
  else if c = '&' then ['&', 'a', 'm', 'p', ';']
  else if c = '\'' then ['&', 'a', 'p', 'o', 's', ';']
  else if c = '"' then ['&', 'q', 'u', 'o', 't', ';']
  else [c]

/-- A text with the characters escaped that could be taken for markup. -/
def escapedChars (text : String) : List Char := text.toList.flatMap escapedChar

/-- A text with the characters escaped that could be taken for markup. -/
def escaped (text : String) : String := String.ofList (escapedChars text)

/-- An attribute to be written. -/
structure Field where
  name : String
  value : String
  deriving DecidableEq, Repr

/-- A piece of markup to be written. -/
inductive Markup where
  | declaration
  | startTag (name : String) (fields : List Field)
  | endTag (name : String)
  | emptyTag (name : String) (fields : List Field)
  | text (content : String)
  deriving DecidableEq, Repr

/-- The text of an attribute. -/
def Field.chars (field : Field) : List Char :=
  ' ' :: field.name.toList ++ ['=', '"'] ++ escapedChars field.value ++ ['"']

/-- The text of a piece of markup. -/
def Markup.chars : Markup → List Char
  | .declaration => "<?xml version=\"1.0\" encoding=\"UTF-8\"?>".toList
  | .startTag name fields => '<' :: name.toList ++ fields.flatMap Field.chars ++ ['>']
  | .endTag name => '<' :: '/' :: name.toList ++ ['>']
  | .emptyTag name fields => '<' :: name.toList ++ fields.flatMap Field.chars ++ ['/', '>']
  | .text content => escapedChars content

/-- The text of pieces of markup, one right behind the other. -/
def compactChars (markup : List Markup) : List Char := markup.flatMap Markup.chars

/-- The number of open elements that a piece of markup is indented by. -/
def Markup.level (depth : Nat) : Markup → Nat
  | .endTag _ => depth - 1
  | _ => depth

/-- The number of open elements behind a piece of markup. -/
def Markup.depthBehind (depth : Nat) : Markup → Nat
  | .startTag _ _ => depth + 1
  | .endTag _ => depth - 1
  | _ => depth

/-- A piece of text, which no line break may stand next to. -/
def Markup.isText : Markup → Bool
  | .text _ => true
  | _ => false

/-- The text of pieces of markup inside `depth` open elements. Each piece other than
text begins a line, unless `joined` says that it follows text or comes first. -/
def indentedChars (width : Nat) (depth : Nat) (joined : Bool) : List Markup → List Char
  | [] => []
  | piece :: rest =>
    (if joined || piece.isText then []
      else '\n' :: List.replicate (width * piece.level depth) ' ') ++
    piece.chars ++ indentedChars width (piece.depthBehind depth) piece.isText rest

/-- The text of pieces of markup, with lines indented by `indent` for each open element if
there is an `indent`. -/
def write (indent : Option Nat) (markup : List Markup) : String :=
  String.ofList (match indent with
    | none => compactChars markup
    | some width => indentedChars width 0 true markup)

end RelaxDoc.Xml
