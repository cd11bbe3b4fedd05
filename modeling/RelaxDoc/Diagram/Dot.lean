import RelaxDoc.Diagram.Basic

/-! Diagrams as Graphviz texts. -/
namespace RelaxDoc.Dot

/-- A character as it stands in a quoted text: a line feed as a letter, and what has a
meaning there behind a backslash. -/
def escapedChar (c : Char) : List Char :=
  if c = '\n' then ['\\', 'n']
  else if c = '"' ∨ c = '\\' then ['\\', c]
  else [c]

/-- A text in quotation marks. -/
def quoted (text : String) : List Char := '"' :: text.toList.flatMap escapedChar ++ ['"']

/-- The name of the node at a position. -/
def nodeName (index : Nat) : List Char := "node".toList ++ Nat.toDigits 10 index

/-- A further attribute of a node, if it has it. -/
def furtherField (name : String) : Option String → List Char
  | some value => ", ".toList ++ name.toList ++ '=' :: quoted value
  | none => []

/-- The first line. -/
def titleLine (title : String) : List Char := "digraph ".toList ++ quoted title ++ " \x7b".toList

/-- The line of a node. -/
def nodeLine (index : Nat) (node : DrawnNode) : List Char :=
  "  ".toList ++ nodeName index ++ " [label=".toList ++ quoted node.label ++
    ", shape=".toList ++ quoted node.style.shape ++
    furtherField "style" node.style.outline ++ furtherField "fillcolor" node.style.fill ++
    "];".toList

/-- The line of an edge. -/
def edgeLine (edge : Nat × Nat) : List Char :=
  "  ".toList ++ nodeName edge.1 ++ " -> ".toList ++ nodeName edge.2 ++ ";".toList

/-- The lines of a diagram with a title. -/
def lines (title : String) (diagram : Diagram) : List (List Char) :=
  titleLine title :: diagram.nodes.zipIdx.map (fun (node, index) => nodeLine index node) ++
    diagram.edges.map edgeLine ++ ["\x7d".toList]

/-- The characters of a diagram with a title. -/
def chars (title : String) (diagram : Diagram) : List Char :=
  (lines title diagram).flatMap (· ++ ['\n'])

/-- The text of a diagram with a title. -/
def text (title : String) (diagram : Diagram) : String := String.ofList (chars title diagram)

end RelaxDoc.Dot
