import RelaxDoc.Text.Digits
import RelaxDoc.Xml.Scanner

/-! References in character data and attribute values. -/
namespace RelaxDoc.Xml

/-- A character as it stands, a character given by a reference, or an entity. -/
inductive Piece where
  | plain (c : Char)
  | given (c : Char)
  | entity (name : String)
  deriving DecidableEq, Repr

/-- The entities that need no declaration. -/
def predefined? (name : String) : Option Char :=
  if name = "quot" then some '"'
  else if name = "amp" then some '&'
  else if name = "apos" then some '\''
  else if name = "lt" then some '<'
  else if name = "gt" then some '>'
  else none

/-- The character with a number. What is no character becomes the replacement character;
numbers of more than 32 bits and characters that are not legal are refused. -/
def givenChar? (digits : List Char) (number : Nat) : Option Char :=
  if digits.isEmpty || number ≥ UInt32.size then none
  else
    let c := if number.isValidChar then Char.ofNat number else '\uFFFD'
    if isLegal c then some c else none

namespace Scanner

/-- Takes a reference behind its ampersand. -/
def reference : Scanner Piece := do
  let piece ← if ← accept "#" then do
      let hexadecimal ← accept "x"
      let digits ← takeWhile (if hexadecimal then Text.isHexDigit else Char.isDigit)
      match givenChar? digits (Text.numberIn (if hexadecimal then 16 else 10) digits) with
      | some c => pure (Piece.given c)
      | none => fail .malformedReference
    else do
      let first ← next
      require (isNameStart first) .malformedReference
      let name := String.ofList (first :: (← takeWhile isNameChar))
      pure (match predefined? name with
        | some c => .given c
        | none => .entity name)
  expect ";"
  return piece

end Scanner

/-- The pieces of a text with references. -/
def pieces : List Char → Except Fault (List Piece)
  | [] => .ok []
  | '&' :: rest => do
    let reference ← Scanner.reference rest
    have := reference.le
    let more ← pieces reference.rest
    return reference.value :: more
  | c :: rest => do
    let more ← pieces rest
    return .plain c :: more
termination_by text => text.length
decreasing_by all_goals simp only [List.length_cons]; omega

end RelaxDoc.Xml
