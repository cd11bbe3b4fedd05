import RelaxDoc.Json.Value

/-! JSON texts: compact, or indented by two spaces for each level. -/
namespace RelaxDoc.Json

/-- A hexadecimal digit in lower case. -/
def hexDigit (n : Nat) : Char :=
  if n < 10 then Char.ofNat ('0'.toNat + n) else Char.ofNat ('a'.toNat + (n - 10))

/-- The characters that stand in a string as a backslash and a letter or mark. -/
def shortEscapes : List (Char × Char) :=
  [('"', '"'), ('\\', '\\'), ('\x08', 'b'), ('\x0c', 'f'), ('\n', 'n'), ('\r', 'r'), ('\t', 't')]

/-- A character as it stands in a string. Control characters without a short escape are
given by their number. -/
def escapedChar (c : Char) : List Char :=
  match shortEscapes.lookup c with
  | some letter => ['\\', letter]
  | none =>
    if c.toNat < 0x20 then
      ['\\', 'u', '0', '0', hexDigit (c.toNat / 16), hexDigit (c.toNat % 16)]
    else [c]

/-- A string in quotation marks. -/
def quoted (text : String) : List Char :=
  '"' :: text.toList.flatMap escapedChar ++ ['"']

/-- The decimal digits of a number. -/
def digits (n : Nat) : List Char := Nat.toDigits 10 n

mutual

/-- The text of a value without white space. -/
def compactChars : Json → List Char
  | .null => ['n', 'u', 'l', 'l']
  | .number n => digits n
  | .string text => quoted text
  | .array items => '[' :: compactItems items ++ [']']
  | .object members => '\x7b' :: compactMembers members ++ ['\x7d']

/-- The texts of items with commas between them. -/
def compactItems : List Json → List Char
  | [] => []
  | [last] => compactChars last
  | item :: next :: rest => compactChars item ++ ',' :: compactItems (next :: rest)

/-- The texts of members with commas between them. -/
def compactMembers : List (String × Json) → List Char
  | [] => []
  | [last] => compactMember last
  | member :: next :: rest => compactMember member ++ ',' :: compactMembers (next :: rest)

/-- The text of a member. -/
def compactMember : String × Json → List Char
  | (name, value) => quoted name ++ ':' :: compactChars value

end

/-- A line break and the spaces that a level is indented by. -/
def lineBreak (level : Nat) : List Char := '\n' :: List.replicate (2 * level) ' '

mutual

/-- The text of a value that stands on a level, indented. -/
def prettyChars (level : Nat) : Json → List Char
  | .null => ['n', 'u', 'l', 'l']
  | .number n => digits n
  | .string text => quoted text
  | .array [] => ['[', ']']
  | .array (item :: rest) => '[' :: prettyItems (level + 1) (item :: rest) ++ lineBreak level ++ [']']
  | .object [] => ['\x7b', '\x7d']
  | .object (member :: rest) =>
    '\x7b' :: prettyMembers (level + 1) (member :: rest) ++ lineBreak level ++ ['\x7d']

/-- The texts of items on lines of their own. -/
def prettyItems (level : Nat) : List Json → List Char
  | [] => []
  | [last] => lineBreak level ++ prettyChars level last
  | item :: next :: rest =>
    lineBreak level ++ prettyChars level item ++ ',' :: prettyItems level (next :: rest)

/-- The texts of members on lines of their own. -/
def prettyMembers (level : Nat) : List (String × Json) → List Char
  | [] => []
  | [last] => lineBreak level ++ prettyMember level last
  | member :: next :: rest =>
    lineBreak level ++ prettyMember level member ++ ',' :: prettyMembers level (next :: rest)

/-- The text of a member. -/
def prettyMember (level : Nat) : String × Json → List Char
  | (name, value) => quoted name ++ ':' :: ' ' :: prettyChars level value

end

/-- The text of a value without white space. -/
def compact (value : Json) : String := String.ofList (compactChars value)

/-- The text of a value, indented. -/
def pretty (value : Json) : String := String.ofList (prettyChars 0 value)

end RelaxDoc.Json
