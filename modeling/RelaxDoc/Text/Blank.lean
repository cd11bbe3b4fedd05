/-! White space as the Unicode property `White_Space` has it, and its removal
from both ends of a text. -/
namespace RelaxDoc.Text

/-- A character with the Unicode property `White_Space`. -/
def isBlank (c : Char) : Bool :=
  (0x09 ≤ c.toNat && c.toNat ≤ 0x0D) || c.toNat == 0x20 || c.toNat == 0x85 ||
  c.toNat == 0xA0 || c.toNat == 0x1680 || (0x2000 ≤ c.toNat && c.toNat ≤ 0x200A) ||
  c.toNat == 0x2028 || c.toNat == 0x2029 || c.toNat == 0x202F || c.toNat == 0x205F ||
  c.toNat == 0x3000

/-- The characters after the leading white space. -/
def trimStart (cs : List Char) : List Char := cs.dropWhile isBlank

/-- The characters before the trailing white space. -/
def trimEnd (cs : List Char) : List Char := (cs.reverse.dropWhile isBlank).reverse

/-- The characters between the leading and the trailing white space. -/
def trim (cs : List Char) : List Char := trimEnd (trimStart cs)

/-- A text without the white space at its ends. -/
def trimmed (text : String) : String := String.ofList (trim text.toList)

end RelaxDoc.Text
