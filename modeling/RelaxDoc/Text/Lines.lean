import RelaxDoc.Text.Blank

/-! Splitting a text at a character, and the single line a text is shown as. -/
namespace RelaxDoc.Text

/-- The stretches of a text between the occurrences of `mark`, empty ones included. -/
def split (mark : Char) : List Char → List (List Char)
  | [] => [[]]
  | c :: rest =>
    if c = mark then [] :: split mark rest
    else match split mark rest with
      | [] => [[c]]
      | first :: others => (c :: first) :: others

theorem split_ne_nil (mark : Char) (cs : List Char) : split mark cs ≠ [] := by
  induction cs with
  | nil => simp [split]
  | cons c rest ih =>
    rw [split]
    split
    · simp
    · split <;> simp

/-- The stretches joined again, with `joint` between neighbours. -/
def joinWith (joint : List Char) : List (List Char) → List Char
  | [] => []
  | [last] => last
  | first :: second :: rest => first ++ joint ++ joinWith joint (second :: rest)

/-- The trimmed lines of a text, blank ones left out. A carriage return before a
line feed is white space at the end of its line. -/
def filledLines (cs : List Char) : List (List Char) :=
  ((split '\n' cs).map trim).filter (fun line => !line.isEmpty)

/-- The filled lines of a text, joined by single spaces. -/
def singleLine (text : String) : String :=
  String.ofList (joinWith [' '] (filledLines text.toList))

end RelaxDoc.Text
