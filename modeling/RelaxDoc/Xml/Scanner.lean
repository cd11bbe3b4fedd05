import RelaxDoc.Xml.Fault
import RelaxDoc.Xml.Letter

/-! Scanners take something from the front of a text. What one leaves is never longer
than what it was given, so a loop that takes a character each time around ends. -/
namespace RelaxDoc.Xml

/-- A scanned value with the text behind it. -/
structure Scanned (α : Type) (input : List Char) where
  value : α
  rest : List Char
  le : rest.length ≤ input.length

/-- The same scan, seen from a longer input. -/
def Scanned.widen {α : Type} {inner outer : List Char} (scan : Scanned α inner)
    (h : inner.length ≤ outer.length) : Scanned α outer :=
  ⟨scan.value, scan.rest, Nat.le_trans scan.le h⟩

/-- A scan of what another scan leaves, seen from the input of the first. -/
def Scanned.behind {α β : Type} {input : List Char} (first : Scanned α input)
    (second : Scanned β first.rest) : Scanned β input := second.widen first.le

/-- The same scan with another value. -/
def Scanned.map {α β : Type} {input : List Char} (f : α → β) (scan : Scanned α input) :
    Scanned β input := ⟨f scan.value, scan.rest, scan.le⟩

/-- Takes a value from the front of a text, or finds a fault. -/
def Scanner (α : Type) : Type := (input : List Char) → Except Fault (Scanned α input)

namespace Scanner

instance : Monad Scanner where
  pure a := fun input => .ok ⟨a, input, Nat.le_refl _⟩
  bind scanner next := fun input =>
    match scanner input with
    | .error fault => .error fault
    | .ok first =>
      match next first.value first.rest with
      | .error fault => .error fault
      | .ok second => .ok (first.behind second)

/-- Finds a fault. -/
def fail {α : Type} (fault : Fault) : Scanner α := fun _ => .error fault

/-- Finds `fault` unless `condition` holds. -/
def require (condition : Bool) (fault : Fault) : Scanner Unit :=
  if condition then pure () else fail fault

/-- The next character, left in place. -/
def peek : Scanner (Option Char) := fun input => .ok ⟨input.head?, input, Nat.le_refl _⟩

/-- Takes the next character. -/
def next : Scanner Char
  | [] => .error .unexpectedEnd
  | c :: rest => .ok ⟨c, rest, Nat.le_succ _⟩

/-- Takes the longest stretch of characters with a property. -/
def takeWhile (p : Char → Bool) : Scanner (List Char) := fun input =>
  .ok ⟨input.takeWhile p, input.dropWhile p, (List.dropWhile_sublist p).length_le⟩

/-- Takes `text` if it comes next, and says whether it did. -/
def accept (text : String) : Scanner Bool := fun input =>
  if text.toList.isPrefixOf input then
    .ok ⟨true, input.drop text.length, (List.drop_sublist _ _).length_le⟩
  else .ok ⟨false, input, Nat.le_refl _⟩

/-- Takes `text`, which must come next. -/
def expect (text : String) : Scanner Unit := do
  require (← accept text) (.expected s!"'{text}'")

/-- Whether `text` comes next, left in place. -/
def sees (text : String) : Scanner Bool := fun input =>
  .ok ⟨text.toList.isPrefixOf input, input, Nat.le_refl _⟩

/-- Takes white space. -/
def spaces : Scanner Unit := do
  let _ ← takeWhile isSpace

/-- Takes white space, of which there must be some. -/
def someSpaces : Scanner Unit := do
  require (!(← takeWhile isSpace).isEmpty) (.expected "white space")

end Scanner

/-- The text before and the text behind the first occurrence of `mark`. -/
def cutAt (mark : List Char) : List Char → Option (List Char × List Char)
  | [] => if mark.isEmpty then some ([], []) else none
  | c :: rest =>
    if mark.isPrefixOf (c :: rest) then some ([], (c :: rest).drop mark.length)
    else (cutAt mark rest).map fun (before, behind) => (c :: before, behind)

theorem length_of_cutAt {mark text before behind : List Char}
    (found : cutAt mark text = some (before, behind)) : behind.length ≤ text.length := by
  induction text generalizing before with
  | nil => grind [cutAt]
  | cons c rest ih =>
    rw [cutAt] at found
    split at found
    · simp only [Option.some.injEq, Prod.mk.injEq] at found
      rw [← found.2, List.length_drop]
      exact Nat.sub_le _ _
    · cases cut : cutAt mark rest with
      | none => simp [cut] at found
      | some parts =>
        simp only [cut, Option.map_some, Option.some.injEq, Prod.mk.injEq] at found
        have inside : cutAt mark rest = some (parts.1, behind) := by rw [cut, ← found.2]
        exact Nat.le_succ_of_le (ih inside)

namespace Scanner

/-- Takes the legal characters before `mark`, and `mark`. -/
def upTo (mark : String) : Scanner (List Char) := fun input =>
  match found : cutAt mark.toList input with
  | none => .error .unexpectedEnd
  | some (before, behind) =>
    match before.find? (fun c => !isLegal c) with
    | some c => .error (.illegalCharacter c)
    | none => .ok ⟨before, behind, length_of_cutAt found⟩

/-- Takes a quotation mark, the characters before its next occurrence, and that. -/
def quoted : Scanner (List Char) := do
  let mark ← next
  require (mark == '"' || mark == '\'') (.expected "a quotation mark")
  let inside ← takeWhile (· != mark)
  let _ ← next
  return inside

end Scanner

end RelaxDoc.Xml
