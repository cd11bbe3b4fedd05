import RelaxDoc.Error
import RelaxDoc.Grammar.Particle
import RelaxDoc.Structure.Site

/-! The structure that schema documents have: which elements there are, which attributes
they need, and where they may stand. -/
namespace RelaxDoc

/-- A way an element can break the structure. -/
inductive Breach where
  | unknownElement (tag : String)
  | missing (tag name : String)
  | badDefinitionName (name : String)
  | badName (name : String)
  | unnamed (tag : String)
  | misplacedDefinition
  deriving DecidableEq, Repr

namespace Breach

/-- The wording of a breach. -/
def message : Breach → String
  | .unknownElement tag => s!"unknown RELAX NG element '{tag}'"
  | .missing tag name => s!"<{tag}> is missing the '{name}' attribute"
  | .badDefinitionName name => s!"'{name}' is not a valid definition name"
  | .badName name => s!"'{name}' is not a valid name"
  | .unnamed tag => s!"<{tag}> needs a 'name' attribute or a name class"
  | .misplacedDefinition => "<define> outside of a grammar"

/-- The rule that a breach is about, where that needs saying. -/
def reason : Breach → Option String
  | .badDefinitionName _ => some "definition names must be NCNames"
  | .misplacedDefinition => some "definitions may only appear in grammar, div or include"
  | _ => none

/-- A breach at a place. -/
def violation (breach : Breach) (path : String) : Violation :=
  ⟨breach.message, breach.reason, some path⟩

end Breach

/-- A name in the structural namespace. -/
def isStructural (name : Xml.Name) : Bool := name.uri = some Namespace.structural

/-- Whether the first structural element in a list of nodes is a name class. -/
def beginsWithNameClass (nodes : List Xml.Node) : Bool :=
  match (Site.elementNames nodes).find? isStructural with
  | some name => ["name", "anyName", "nsName", "choice"].contains name.localName
  | none => false

namespace Site

/-- Whether the element around is one that definitions may stand in. -/
def holdsDefinitions (site : Site) : Bool :=
  match site.parent with
  | some name => isStructural name && ["grammar", "div", "include"].contains name.localName
  | none => false

/-- The breach for want of an attribute. -/
def missing? (site : Site) (name : String) : Option Breach :=
  match site.tag.attribute? name with
  | some _ => none
  | none => some (.missing site.tag.name.localName name)

/-- How a definition or a reference breaks the rules on its name. -/
def definitionName? (site : Site) : Option Breach :=
  match site.tag.attribute? "name" with
  | none => some (.missing site.tag.name.localName "name")
  | some name => if Name.isSimple name then none else some (.badDefinitionName name)

/-- How an element or an attribute pattern breaks the rules on its name. -/
def patternName? (site : Site) : Option Breach :=
  match site.tag.attribute? "name" with
  | some name =>
    if Name.isQualified (Text.trimmed name) then none else some (.badName (Text.trimmed name))
  | none =>
    if beginsWithNameClass site.children then none else some (.unnamed site.tag.name.localName)

/-- How a structural element breaks the rules on its kind. -/
def breach? (site : Site) : Option Breach :=
  match Kind.ofTag? site.tag.name.localName with
  | none => some (.unknownElement site.tag.name.localName)
  | some .define =>
    site.definitionName? <|> if site.holdsDefinitions then none else some .misplacedDefinition
  | some .ref | some .parentRef => site.definitionName?
  | some .data => site.missing? "type"
  | some .inclusion | some .externalRef => site.missing? "href"
  | some .element | some .attr => site.patternName?
  | some _ => none

/-- The violation at an element, if it is structural and breaks the rules. -/
def violation? (site : Site) : Option Violation :=
  if isStructural site.tag.name then site.breach?.map fun breach => breach.violation site.path
  else none

end Site

/-- Refuses a document whose structure is broken, for the first violation in document
order, wherever the element stands. -/
def checkStructure (document : Xml.Document) : Except Violation Unit :=
  match (Site.all document).findSome? Site.violation? with
  | some violation => .error violation
  | none => .ok ()

end RelaxDoc
