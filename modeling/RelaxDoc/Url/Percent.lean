import RelaxDoc.Text.Digits
import RelaxDoc.Text.Utf8

/-! Percent-encoding of characters, and its undoing. -/
namespace RelaxDoc.Url

/-- A hexadecimal digit in upper case. -/
def hexDigit (n : Nat) : Char :=
  if n < 10 then Char.ofNat ('0'.toNat + n) else Char.ofNat ('A'.toNat + (n - 10))

/-- A byte in percent-encoding. -/
def encodedByte (b : UInt8) : List Char :=
  ['%', hexDigit (b.toNat / 16), hexDigit (b.toNat % 16)]

/-- The control characters of ASCII, and all that is not ASCII. -/
def isControl (c : Char) : Bool := c.toNat < 0x20 || c.toNat ≥ 0x7F

/-- The characters to encode in a fragment. -/
def inFragment (c : Char) : Bool := isControl c || [' ', '"', '<', '>', '\x60'].contains c

/-- The characters to encode in a query; in some schemes also apostrophes. -/
def inQuery (special : Bool) (c : Char) : Bool :=
  isControl c || [' ', '"', '#', '<', '>'].contains c || (special && c == '\'')

/-- The characters to encode in a path. -/
def inPath (c : Char) : Bool := inFragment c || ['#', '?', '\x7b', '\x7d'].contains c

/-- The characters to encode in user information. -/
def inUserinfo (c : Char) : Bool :=
  inPath c || ['/', ':', ';', '=', '@', '[', '\\', ']', '^', '|'].contains c

/-- Characters with those of a class in percent-encoding. -/
def percentEncode (encodes : Char → Bool) (cs : List Char) : List Char :=
  cs.flatMap fun c =>
    if encodes c then (Text.encode (String.singleton c)).flatMap encodedByte else [c]

/-- The bytes that characters in percent-encoding stand for. -/
def percentDecode : List Char → List UInt8
  | '%' :: high :: low :: rest =>
    match Text.hexValue? high, Text.hexValue? low with
    | some h, some l => UInt8.ofNat (h * 16 + l) :: percentDecode rest
    | _, _ => Text.encode "%" ++ percentDecode (high :: low :: rest)
  | c :: rest => Text.encode (String.singleton c) ++ percentDecode rest
  | [] => []
termination_by text => text.length
decreasing_by all_goals simp only [List.length_cons]; omega

end RelaxDoc.Url
