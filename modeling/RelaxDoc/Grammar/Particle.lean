import RelaxDoc.Grammar.Arena
import RelaxDoc.Text.Blank
import RelaxDoc.Xml.Tree

/-! The part of a schema document that a grammar keeps: elements of the structural
namespace that are known there, and documentation. -/
namespace RelaxDoc

/-- What a kept element says, apart from the elements in it. A value is `remarked` if
the next element is documentation. -/
structure Label where
  kind : Kind
  attributes : List (String × String)
  text : Option String
  prefixes : Prefixes
  remarked : Bool
  deriving DecidableEq, Repr

/-- A kept element with the elements kept in it. -/
inductive Particle where
  | mk (label : Label) (children : List Particle)
  deriving Repr

/-- The kind of an element that is kept. -/
def Kind.ofName? (name : Xml.Name) : Option Kind :=
  if name.uri = some Namespace.structural then Kind.ofTag? name.localName
  else if name = ⟨some Namespace.compatibility, "documentation"⟩ then some .documentation
  else none

/-- The attributes in no namespace. Their values are trimmed, except for `ns`, where white
space would be part of a namespace. -/
def plainAttributes (attributes : List Xml.Attribute) : List (String × String) :=
  attributes.filterMap fun a =>
    if a.name.uri.isNone then
      some (a.name.localName, if a.name.localName = "ns" then a.value else Text.trimmed a.value)
    else none

/-- The qualifiers that a tag inside `outer` declares anew or differently. -/
def newPrefixes (outer : Xml.Scope) (declarations : List Xml.Declaration) : Prefixes :=
  declarations.foldl (fun prefixes d =>
    match d.qualifier with
    | none => prefixes
    | some qualifier =>
      if outer.lookup (some qualifier) = some d.uri then prefixes
      else prefixes.insert qualifier d.uri) .empty

/-- The text that a kind keeps of its content: documentation all of it, whatever markup
it stands in, a name without the white space around it. -/
def keptText (kind : Kind) (children : List Xml.Node) : Option String :=
  if !kind.holdsText then none
  else if kind = .documentation then some (Xml.fullTexts children)
  else if kind = .name then some (Text.trimmed (Xml.directText children))
  else some (Xml.directText children)

/-- What an element of a kind says inside `outer` and in front of the elements of
`following`. -/
def Label.ofTag (outer : Xml.Scope) (following : List Xml.Node) (kind : Kind) (tag : Xml.Tag)
    (children : List Xml.Node) : Label where
  kind := kind
  attributes := plainAttributes tag.attributes
  text := keptText kind children
  prefixes := newPrefixes outer tag.declarations
  remarked := kind = .value &&
    (Xml.firstTag? following).any fun next => Kind.ofName? next.name = some .documentation

namespace Particle

/-- What the element says. -/
def label : Particle → Label
  | mk label _ => label

/-- The elements kept in the element. -/
def children : Particle → List Particle
  | mk _ children => children

mutual

/-- What is kept of a node inside `outer` and in front of `following`. -/
def ofNode? (outer : Xml.Scope) (following : List Xml.Node) : Xml.Node → Option Particle
  | .element tag children =>
    match Kind.ofName? tag.name with
    | none => none
    | some kind =>
      some (mk (.ofTag outer following kind tag children)
        (if kind.holdsText then [] else ofNodes (outer.enter tag.declarations) children))
  | .text _ => none
  | .comment _ => none
  | .instruction _ _ => none

/-- What is kept of a list of nodes inside `outer`. -/
def ofNodes (outer : Xml.Scope) : List Xml.Node → List Particle
  | [] => []
  | node :: rest => (ofNode? outer rest node).toList ++ ofNodes outer rest

end

mutual

/-- The number of elements, the particle's own included. -/
def size : Particle → Nat
  | mk _ children => sizes children + 1

/-- The number of elements of several particles. -/
def sizes : List Particle → Nat
  | [] => 0
  | particle :: rest => particle.size + sizes rest

end

/-- The positions of particles that stand one behind the other from `first` on. -/
def positions (first : Nat) : List Particle → List Nat
  | [] => []
  | particle :: rest => first :: positions (first + particle.size) rest

/-- The node of a particle at `id`. Its remark, if any, comes right behind it. -/
def node (parent : Option Nat) (id : Nat) (particle : Particle) : Node where
  kind := particle.label.kind
  attributes := particle.label.attributes
  text := particle.label.text
  children := positions (id + 1) particle.children
  parent := parent
  prefixes := particle.label.prefixes
  remark := if particle.label.remarked then some (id + 1) else none

mutual

/-- The nodes of a particle at `id`, in document order. -/
def nodes (parent : Option Nat) (id : Nat) : Particle → List Node
  | mk label children => node parent id (mk label children) :: nodesOfAll id (id + 1) children

/-- The nodes of the particles in `parent` that stand from `first` on. -/
def nodesOfAll (parent : Nat) (first : Nat) : List Particle → List Node
  | [] => []
  | particle :: rest =>
    nodes (some parent) first particle ++ nodesOfAll parent (first + particle.size) rest

end

end Particle

end RelaxDoc
