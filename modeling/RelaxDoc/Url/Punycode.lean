/-! The ASCII form of host labels in other scripts, written and read. -/
namespace RelaxDoc.Url.Punycode

/-- The digit for a value up to thirty-five. -/
def digit (n : Nat) : Char :=
  if n < 26 then Char.ofNat ('a'.toNat + n) else Char.ofNat ('0'.toNat + (n - 26))

/-- The bound of the digit at a place: between one and twenty-six. -/
def threshold (place bias : Nat) : Nat :=
  if place ≤ bias then 1 else if place ≥ bias + 26 then 26 else place - bias

theorem threshold_bounds (place bias : Nat) :
    1 ≤ threshold place bias ∧ threshold place bias ≤ 26 := by
  unfold threshold
  split
  · omega
  · split <;> omega

/-- A difference in digits of varying base, the least first. -/
def differenceDigits (bias place difference : Nat) : List Char :=
  let t := threshold place bias
  if difference < t then [digit difference]
  else digit (t + (difference - t) % (36 - t)) ::
    differenceDigits bias (place + 36) ((difference - t) / (36 - t))
termination_by difference
decreasing_by
  have := threshold_bounds place bias
  have := Nat.div_le_self (difference - threshold place bias) (36 - threshold place bias)
  omega

/-- The places that a difference takes up, as a bias for the next one. -/
def biasOf (difference place : Nat) : Nat :=
  if difference > 455 then biasOf (difference / 35) (place + 36)
  else place + 36 * difference / (difference + 38)
termination_by difference

/-- The bias after a difference, the `count`th that is written. -/
def adapt (difference count : Nat) (first : Bool) : Nat :=
  let halved := if first then difference / 700 else difference / 2
  biasOf (halved + halved / count) 0

/-- Where encoding stands: the text so far, the difference, the bias, and the number of characters
that are written. -/
structure Progress where
  text : List Char
  difference : Nat
  bias : Nat
  written : Nat

/-- Looks at a character while the characters with a number are due. -/
def Progress.look (basic due : Nat) (p : Progress) (c : Char) : Progress :=
  if c.toNat < due then { p with difference := p.difference + 1 }
  else if c.toNat = due then
    { text := p.text ++ differenceDigits p.bias 36 p.difference
      difference := 0
      bias := adapt p.difference (p.written + 1) (p.written == basic)
      written := p.written + 1 }
  else p

/-- Writes the characters with the given numbers, which increase; those below `start` are written. -/
def extended (label : List Char) (basic : Nat) : List Nat → (start : Nat) → Progress → List Char
  | [], _, p => p.text
  | due :: rest, start, p =>
    let p := { p with difference := p.difference + (due - start) * (p.written + 1) }
    let p := label.foldl (Progress.look basic due) p
    extended label basic rest (due + 1) { p with difference := p.difference + 1 }

/-- The encoded form of a label. -/
def encode (label : List Char) : List Char :=
  let basic := label.filter fun c => c.toNat < 0x80
  let others := ((label.filter fun c => c.toNat ≥ 0x80).map Char.toNat).mergeSort.eraseDups
  basic ++ (if basic = [] then [] else ['-']) ++
    extended label basic.length others 0x80 ⟨[], 0, 72, basic.length⟩

/-- The value of a digit. -/
def digitValue? (c : Char) : Option Nat :=
  if 'a' ≤ c && c ≤ 'z' then some (c.toNat - 'a'.toNat)
  else if c.isDigit then some (c.toNat - '0'.toNat + 26)
  else none

/-- Where decoding stands: the text so far, the number of the character that came last and the
index behind it, the bias, and the digits of a difference that is not complete: their value, the
place of the next digit and its weight. -/
structure Reading where
  text : List Char
  due : Nat
  index : Nat
  bias : Nat
  difference : Nat
  place : Nat
  weight : Nat

/-- Takes a digit. The last one of a difference puts a character into the text. -/
def Reading.take (r : Reading) (c : Char) : Option Reading := do
  let value ← digitValue? c
  let difference := r.difference + value * r.weight
  let bound := threshold r.place r.bias
  if value ≥ bound then
    return { r with
      difference := difference
      place := r.place + 36
      weight := r.weight * (36 - bound) }
  else
    let count := r.text.length + 1
    let number := r.due + (r.index + difference) / count
    let index := (r.index + difference) % count
    if number.isValidChar then
      return {
        text := r.text.insertIdx index (Char.ofNat number)
        due := number
        index := index + 1
        bias := adapt difference count (r.index == 0)
        difference := 0
        place := 36
        weight := 1 }
    else none

/-- The digits of an encoded form, and the ASCII characters before its last hyphen. -/
def cutDigits (code : List Char) : List Char × List Char :=
  match code.reverse.dropWhile (· != '-') with
  | [] | [_] => (code, [])
  | _ :: basic => ((code.reverse.takeWhile (· != '-')).reverse, basic.reverse)

/-- The label with an encoded form. -/
def decode? (code : List Char) : Option (List Char) := do
  let (digits, basic) := cutDigits code
  if basic.any fun c => c.toNat ≥ 0x80 then none
  else
    let r ← digits.foldlM Reading.take ⟨basic, 0x80, 0, 72, 0, 36, 1⟩
    if r.place = 36 then return r.text else none

end RelaxDoc.Url.Punycode
