import RelaxDoc.Text.CombiningClass
import RelaxDoc.Text.Composite

/-! The normal form of a text: marks are in order, and characters are composed where
they can be. -/
namespace RelaxDoc.Text

/-- Puts a character in front of a text whose marks are in order, behind the marks of
lower classes. -/
def insertMark (c : Char) : List Char → List Char
  | [] => [c]
  | d :: rest =>
    if 0 < combiningClass d && combiningClass d < combiningClass c then d :: insertMark c rest
    else c :: d :: rest

/-- A text with the marks behind each character in the order of their classes. -/
def ordered : List Char → List Char
  | [] => []
  | c :: rest => insertMark c (ordered rest)

/-- Composes a character with those behind it, as far as none of the marks that stay
between them is in the way. -/
def composeBehind (base : Char) (marks : List Char) : List Char → List Char
  | [] => base :: marks
  | c :: rest =>
    let free := marks.getLast?.all fun mark => combiningClass mark < combiningClass c
    match if free then composite? base c else none with
    | some whole => composeBehind whole marks rest
    | none =>
      if combiningClass c = 0 then base :: marks ++ composeBehind c [] rest
      else composeBehind base (marks ++ [c]) rest

/-- The composed form of a text whose marks are in order. -/
def composed : List Char → List Char
  | [] => []
  | c :: rest => composeBehind c [] rest

/-- The normal form of a text. -/
def normalForm (text : List Char) : List Char := composed (ordered (text.flatMap parts))

end RelaxDoc.Text
