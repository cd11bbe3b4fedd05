import RelaxDoc.Url.Label

/-! The hosts of URLs: names, and addresses of both versions of the Internet Protocol. -/
namespace RelaxDoc.Url

/-- A number of an address: decimal, octal behind a zero, or hexadecimal behind `0x`. -/
def addressNumber? (text : List Char) : Option Nat :=
  match text with
  | [] => none
  | ['0'] => some 0
  | '0' :: 'x' :: digits | '0' :: 'X' :: digits =>
    if digits.all Text.isHexDigit then some (Text.numberIn 16 digits) else none
  | '0' :: digits =>
    if digits.all fun c => '0' ≤ c && c ≤ '7' then some (Text.numberIn 8 digits) else none
  | digits => if digits.all Char.isDigit then some (Text.numberIn 10 digits) else none

/-- The parts of a name between dots, without an empty one at the end. -/
def dottedParts (name : List Char) : List (List Char) :=
  let parts := Text.split '.' name
  if parts.length > 1 && parts.getLast? == some [] then parts.dropLast else parts

/-- Whether a name is meant to be an address: its last part is a number. -/
def endsInNumber (name : List Char) : Bool :=
  match (dottedParts name).getLast? with
  | none => false
  | some last => (last ≠ [] && last.all Char.isDigit) || (addressNumber? last).isSome

/-- The address that up to four numbers write. The last one fills the bytes that are left. -/
def ofNumbers? (numbers : List Nat) : Option Nat :=
  match numbers.getLast? with
  | none => none
  | some last =>
    let before := numbers.dropLast
    let room := Nat.pow 256 (4 - before.length)
    if numbers.length > 4 || last ≥ room || before.any (· > 255) then none
    else some (before.foldl (fun address n => address * 256 + n) 0 * room + last)

/-- The dotted form of an address. -/
def dotted (address : Nat) : List Char :=
  Text.joinWith ['.'] ([3, 2, 1, 0].map fun index =>
    Nat.toDigits 10 (address / Nat.pow 256 index % 256))

/-- The dotted form of the address that a name writes. -/
def address? (name : List Char) : Option (List Char) := do
  let numbers ← (dottedParts name).mapM addressNumber?
  return dotted (← ofNumbers? numbers)

/-- The byte that a part of a dotted address writes inside of a longer address. -/
def byte? (part : List Char) : Option Nat :=
  let padded := part.length > 1 && part.head? == some '0'
  if part = [] || part.length > 3 || !part.all Char.isDigit || padded then none
  else if Text.numberIn 10 part > 255 then none
  else some (Text.numberIn 10 part)

/-- The pair of numbers that a dotted address stands for in a longer address. -/
def dottedPair? (text : List Char) : Option (List Nat) := do
  match ← (Text.split '.' text).mapM byte? with
  | [a, b, c, d] => return [a * 256 + b, c * 256 + d]
  | _ => none

/-- The numbers that the last group of a longer address stands for. -/
def lastGroup? (text : List Char) : Option (List Nat) :=
  if text.contains '.' then dottedPair? text
  else if text ≠ [] && text.length ≤ 4 && text.all Text.isHexDigit then
    some [Text.numberIn 16 text]
  else none

/-- The numbers of groups between colons. -/
def groups? : List (List Char) → Option (List Nat)
  | [] => some []
  | [last] => lastGroup? last
  | group :: rest =>
    if group.contains '.' then none
    else do return (← lastGroup? group) ++ (← groups? rest)

/-- The text before and the text behind two colons in a row. -/
def atGap : List Char → Option (List Char × List Char)
  | ':' :: ':' :: rest => some ([], rest)
  | c :: rest => (atGap rest).map fun (before, behind) => (c :: before, behind)
  | [] => none

/-- The groups of one side of an address. -/
def sideGroups? (text : List Char) : Option (List Nat) :=
  if text = [] then some [] else groups? (Text.split ':' text)

/-- The eight numbers of a longer address. Two colons stand for one zero or more. -/
def longAddress? (text : List Char) : Option (List Nat) :=
  match atGap text with
  | none => do
    let numbers ← groups? (Text.split ':' text)
    if numbers.length = 8 then return numbers else none
  | some (before, behind) => do
    let left ← sideGroups? before
    let right ← sideGroups? behind
    if before.contains '.' || left.length + right.length > 7 then none
    else return left ++ List.replicate (8 - left.length - right.length) 0 ++ right

/-- The length of the run of zeros that numbers begin with. -/
def zeroRun (numbers : List Nat) : Nat := (numbers.takeWhile (· == 0)).length

/-- The start and the length of the first longest run of zeros, from `start` on. -/
def longestRun (start : Nat) : List Nat → Nat × Nat
  | [] => (start, 0)
  | n :: rest =>
    let here := zeroRun (n :: rest)
    let later := longestRun (start + 1) rest
    if here ≥ later.2 then (start, here) else later

/-- Groups in hexadecimal with colons between them. -/
def groupText (numbers : List Nat) : List Char :=
  Text.joinWith [':'] (numbers.map (Nat.toDigits 16))

/-- The shortest text of a longer address, with two colons for its longest run of zeros. -/
def longAddressText (numbers : List Nat) : List Char :=
  let (start, length) := longestRun 0 numbers
  if length < 2 then groupText numbers
  else groupText (numbers.take start) ++ [':', ':'] ++ groupText (numbers.drop (start + length))

/-- An address in brackets. -/
def bracketed? (host : List Char) : Option (List Char) :=
  if host.getLast? = some ']' then
    (longAddress? (host.drop 1).dropLast).map fun numbers =>
      '[' :: longAddressText numbers ++ [']']
  else none

/-- The host of a URL with a well-known scheme. -/
def namedHost? (host : List Char) : Option (List Char) :=
  if host.head? = some '[' then bracketed? host
  else match Text.decode (percentDecode host) with
    | .error _ => none
    | .ok text => do
    let name ← asciiName? text.toList
    if name = [] then none
    else if endsInNumber name then address? name
    else return name

/-- The host of a URL with another scheme. -/
def opaqueHost? (host : List Char) : Option (List Char) :=
  if host.head? = some '[' then bracketed? host
  else if host.any isForbidden then none
  else some (percentEncode isControl host)

end RelaxDoc.Url
