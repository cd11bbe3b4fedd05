/-! Names as patterns write them: a local name, maybe behind a qualifier and a colon. -/
namespace RelaxDoc.Name

/-- The characters a name may begin with. -/
def isStart (c : Char) : Bool :=
  ('A' ≤ c && c ≤ 'Z') || c == '_' || ('a' ≤ c && c ≤ 'z') ||
  (0xC0 ≤ c.toNat && c.toNat ≤ 0xD6) || (0xD8 ≤ c.toNat && c.toNat ≤ 0xF6) ||
  (0xF8 ≤ c.toNat && c.toNat ≤ 0x2FF) || (0x370 ≤ c.toNat && c.toNat ≤ 0x37D)

/-- The characters a name may go on with. -/
def isRest (c : Char) : Bool :=
  isStart c || c == '-' || c == '.' || ('0' ≤ c && c ≤ '9') || c.toNat == 0xB7

/-- A name without a colon. -/
def isSimpleChars : List Char → Bool
  | [] => false
  | first :: rest => isStart first && rest.all isRest

/-- A name without a colon. -/
def isSimple (name : String) : Bool := isSimpleChars name.toList

/-- The characters before the first colon, if there is one, and those behind it. -/
def splitChars (cs : List Char) : Option (List Char) × List Char :=
  match cs.dropWhile (· != ':') with
  | [] => (none, cs)
  | _ :: behind => (some (cs.takeWhile (· != ':')), behind)

/-- The qualifier of a name, if it has one, and its local part. -/
def split (name : String) : Option String × String :=
  ((splitChars name.toList).1.map String.ofList, String.ofList (splitChars name.toList).2)

/-- A name with or without a qualifier. -/
def isQualified (name : String) : Bool :=
  match splitChars name.toList with
  | (none, cs) => isSimpleChars cs
  | (some qualifier, localName) => isSimpleChars qualifier && isSimpleChars localName

end RelaxDoc.Name
