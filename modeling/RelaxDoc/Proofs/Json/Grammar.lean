import Mathlib.Data.Rat.Defs
import Mathlib.Algebra.Field.Rat
import RelaxDoc.Text.Digits

/-! The grammar of JSON texts: which texts spell which values. Where the grammar leaves a choice, the
same value is spelled in several ways: white space, escapes of characters, the form of numbers. -/
namespace RelaxDoc.Json

/-- A value of any kind. The members of an object keep their order. -/
inductive Value where
  | null
  | bool (truth : Bool)
  | number (n : ℚ)
  | string (text : String)
  | array (items : List Value)
  | object (members : List (String × Value))

/-- The characters of white space. -/
def spaces : List Char := [' ', '\t', '\n', '\r']

/-- White space between the parts of a text. -/
def IsGap (gap : List Char) : Prop := ∀ c ∈ gap, c ∈ spaces

section Numbers

/-- One or more decimal digits. -/
@[ext]
structure Digits where
  chars : List Char
  filled : chars ≠ []
  isDigit : ∀ c ∈ chars, c.isDigit = true

/-- The number that digits write. -/
def digitsValue (digits : List Char) : Nat := Nat.ofDigitChars 10 digits 0

/-- A sign in front of an exponent. -/
inductive Sign where
  | plus
  | minus

/-- The text of a sign. -/
def Sign.chars : Sign → List Char
  | .plus => ['+']
  | .minus => ['-']

/-- An exponent with the letter it begins with and maybe a sign. -/
@[ext]
structure Exponent where
  letter : Char
  sign : Option Sign
  digits : Digits
  letter_mem : letter ∈ ['e', 'E']

/-- The text of an exponent. -/
def Exponent.chars (exponent : Exponent) : List Char :=
  exponent.letter :: (exponent.sign.elim [] Sign.chars ++ exponent.digits.chars)

/-- The power of ten of an exponent. -/
def Exponent.value (exponent : Exponent) : ℤ :=
  match exponent.sign with
  | some .minus => -digitsValue exponent.digits.chars
  | _ => digitsValue exponent.digits.chars

/-- A number as it is written. A whole part of several digits does not begin with a zero. -/
@[ext]
structure Numeral where
  negative : Bool
  whole : Digits
  fraction : Option Digits
  exponent : Option Exponent
  proper : whole.chars.head? = some '0' → whole.chars = ['0']

namespace Numeral

/-- The sign of a negative number. -/
def signChars (numeral : Numeral) : List Char := if numeral.negative then ['-'] else []

/-- The digits of the fraction. -/
def fractionDigits (numeral : Numeral) : List Char := numeral.fraction.elim [] Digits.chars

/-- The fraction behind its point. -/
def fractionChars (numeral : Numeral) : List Char :=
  numeral.fraction.elim [] (List.cons '.' ∘ Digits.chars)

/-- The text of the exponent. -/
def exponentChars (numeral : Numeral) : List Char := numeral.exponent.elim [] Exponent.chars

/-- The text of a number. -/
def chars (numeral : Numeral) : List Char :=
  numeral.signChars ++ (numeral.whole.chars ++ (numeral.fractionChars ++ numeral.exponentChars))

/-- The number that is written. -/
def value (numeral : Numeral) : ℚ :=
  (if numeral.negative then -1 else 1) *
    digitsValue (numeral.whole.chars ++ numeral.fractionDigits) *
    10 ^ (numeral.exponent.elim 0 Exponent.value - numeral.fractionDigits.length)

end Numeral

end Numbers

section Strings

/-- The letters and marks that stand behind a backslash for a character. -/
def escapes : List (Char × Char) :=
  [('"', '"'), ('\\', '\\'), ('/', '/'), ('b', '\x08'), ('f', '\x0c'), ('n', '\n'), ('r', '\r'),
    ('t', '\t')]

/-- Four hexadecimal digits that write a number. -/
structure IsQuad (quad : List Char) (n : Nat) : Prop where
  length : quad.length = 4
  isHexDigit : ∀ c ∈ quad, Text.isHexDigit c = true
  value : Text.numberIn 16 quad = n

/-- A text spells a character in a string: as it is, behind a backslash, by its number, or by the
numbers of two surrogates. -/
inductive SpellsChar : Char → List Char → Prop
  | plain {c : Char} : 0x20 ≤ c.toNat → c ∉ ['"', '\\'] → SpellsChar c [c]
  | escape {c letter : Char} : (letter, c) ∈ escapes → SpellsChar c ['\\', letter]
  | unit {c : Char} {quad : List Char} : IsQuad quad c.toNat → SpellsChar c ('\\' :: 'u' :: quad)
  | surrogates {c : Char} {front back : List Char} {high low : Nat} :
    IsQuad front (0xd800 + high) → IsQuad back (0xdc00 + low) → high < 0x400 → low < 0x400 →
    c.toNat = 0x10000 + high * 0x400 + low →
    SpellsChar c ('\\' :: 'u' :: (front ++ '\\' :: 'u' :: back))

/-- A text spells characters one by one. -/
inductive SpellsChars : List Char → List Char → Prop
  | nil : SpellsChars [] []
  | cons {c : Char} {rest cs more : List Char} : SpellsChar c cs → SpellsChars rest more →
    SpellsChars (c :: rest) (cs ++ more)

/-- A text spells a string between quotation marks. -/
inductive SpellsString : String → List Char → Prop
  | quoted {text : String} {body : List Char} : SpellsChars text.toList body →
    SpellsString text ('"' :: (body ++ ['"']))

end Strings

section Values

variable {α : Type}

/-- What stands behind an entry of a row: further entries, each behind a comma. -/
inductive Further (spells : α → List Char → Prop) : List α → List Char → Prop
  | done {gap : List Char} : IsGap gap → Further spells [] gap
  | next {a : α} {rest : List α} {gap lead cs more : List Char} : IsGap gap → IsGap lead →
    spells a cs → Further spells rest more →
    Further spells (a :: rest) (gap ++ ',' :: (lead ++ (cs ++ more)))

/-- A text spells entries with commas between them. -/
inductive Row (spells : α → List Char → Prop) : List α → List Char → Prop
  | empty {gap : List Char} : IsGap gap → Row spells [] gap
  | filled {a : α} {rest : List α} {lead cs more : List Char} : IsGap lead → spells a cs →
    Further spells rest more → Row spells (a :: rest) (lead ++ (cs ++ more))

/-- A text spells a name and what belongs to it. -/
inductive Member (spells : α → List Char → Prop) : String × α → List Char → Prop
  | named {name : String} {a : α} {key gap lead cs : List Char} : SpellsString name key →
    IsGap gap → IsGap lead → spells a cs →
    Member spells (name, a) (key ++ (gap ++ ':' :: (lead ++ cs)))

/-- A text spells a value. -/
inductive Spells : Value → List Char → Prop
  | null : Spells .null ['n', 'u', 'l', 'l']
  | yes : Spells (.bool true) ['t', 'r', 'u', 'e']
  | no : Spells (.bool false) ['f', 'a', 'l', 's', 'e']
  | number (numeral : Numeral) : Spells (.number numeral.value) numeral.chars
  | string {text : String} {cs : List Char} : SpellsString text cs → Spells (.string text) cs
  | array {items : List Value} {cs : List Char} : Row Spells items cs →
    Spells (.array items) ('[' :: (cs ++ [']']))
  | object {members : List (String × Value)} {cs : List Char} : Row (Member Spells) members cs →
    Spells (.object members) ('\x7b' :: (cs ++ ['\x7d']))

/-- A value that a whole text spells, maybe with white space around it. -/
def Denotes (text : String) (value : Value) : Prop :=
  ∃ lead cs gap, IsGap lead ∧ Spells value cs ∧ IsGap gap ∧ text.toList = lead ++ (cs ++ gap)

end Values

end RelaxDoc.Json
