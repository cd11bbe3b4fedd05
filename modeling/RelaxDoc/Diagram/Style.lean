import RelaxDoc.Grammar.Kind

/-! How the nodes of diagrams look. -/
namespace RelaxDoc

/-- The look of a node: a shape, maybe an outline, a fill colour and a fixed label. -/
structure NodeStyle where
  shape : String
  outline : Option String
  fill : Option String
  glyph : Option String
  deriving DecidableEq, Repr

namespace NodeStyle

/-- A bare shape. -/
def plain (shape : String) : NodeStyle := ⟨shape, none, none, none⟩

/-- A shape with an outline and a fill colour. -/
def filled (shape outline fill : String) : NodeStyle := ⟨shape, some outline, some fill, none⟩

/-- A circle with a fixed label. -/
def operator (glyph : String) : NodeStyle := ⟨"circle", none, none, some glyph⟩

/-- The look of references to what is drawn elsewhere. -/
def reference : NodeStyle := ⟨"box", some "dashed", none, none⟩

end NodeStyle

/-- The look of a kind. -/
def Kind.style : Kind → NodeStyle
  | .element => .filled "box" "rounded,filled" "#c0ffee"
  | .attr => .filled "ellipse" "filled" "#fca9a9"
  | .data => .filled "ellipse" "filled" "#a9bdfc"
  | .value => .filled "ellipse" "filled" "#a2a4aa"
  | .param => .filled "ellipse" "filled" "#f9d368"
  | .zeroOrMore => .operator "*"
  | .oneOrMore => .operator "+"
  | .optional => .operator "?"
  | .choice => .operator "|"
  | .interleave => .operator "&"
  | .exclusion => .operator "-"
  | .group => .operator "group"
  | .list => .operator "list"
  | .mixed => .operator "mixed"
  | .nsName => .plain "circle"
  | .text | .empty | .notAllowed | .anyName | .div => .plain "rect"
  | .define | .ref | .parentRef | .grammar | .start | .inclusion | .externalRef | .name
  | .documentation => .plain "ellipse"

end RelaxDoc
