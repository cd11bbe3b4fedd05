import RelaxDoc.Text.Digits
import RelaxDoc.Text.Lines

/-! Tables of characters, written as words of hexadecimal numbers. A table may have sections,
each behind a word with a sign and a number. -/
namespace RelaxDoc.Text

/-- Membership in one of the ranges. -/
def inRanges (ranges : List (Nat × Nat)) (c : Char) : Bool :=
  ranges.any fun range => range.1 ≤ c.toNat && c.toNat ≤ range.2

/-- The words of a table, which are between spaces and line ends. -/
def words (table : String) : List (List Char) :=
  let spaced := table.toList.map fun c => if c == '\n' then ' ' else c
  (split ' ' spaced).filter fun word => !word.isEmpty

/-- The numbers of a word, with a mark between neighbours. -/
def numbers (mark : Char) (word : List Char) : List Nat := (split mark word).map (numberIn 16)

/-- The range that a word writes: its first and its last number, or its only one twice. -/
def rangeOf (mark : Char) (word : List Char) : Nat × Nat :=
  ((numbers mark word).head?.getD 0, (numbers mark word).getLast?.getD 0)

/-- The ranges that words write. -/
def rangesOf (table : List (List Char)) : List (Nat × Nat) := table.map (rangeOf '-')

/-- The numbers of the sections of a table, each with the words of its section. -/
def sections (table : List (List Char)) : List (Nat × List (List Char)) :=
  (table.foldr (fun word (found, waiting) =>
    match word with
    | '@' :: digits => ((numberIn 16 digits, waiting) :: found, [])
    | _ => (found, word :: waiting)) (([], []) : List (Nat × List (List Char)) × _)).1

end RelaxDoc.Text
