import RelaxDoc.Grammar.Layout
import RelaxDoc.Grammar.Visit

/-! The grammar of a schema document. -/
namespace RelaxDoc.Grammar

/-- Refuses a document whose root is outside of the structural namespace. -/
def checkRoot (document : Xml.Document) : Except Error Unit :=
  let name := document.root.name
  if name.uri = some Namespace.structural then .ok ()
  else .error (.wrongNamespace name.uri name.localName)

theorem exists_particle {document : Xml.Document} {kind : Kind}
    (known : Kind.ofName? document.root.name = some kind) :
    ∃ particle, Particle.ofNode? [] [] document.toNode = some particle := by
  rw [Xml.Document.toNode, Particle.ofNode?, known]
  exact ⟨_, rfl⟩

/-- What is kept of a document, from its root on. -/
def rootParticle (document : Xml.Document) : Except Error Particle := do
  checkRoot document
  match Particle.ofNode? [] [] document.toNode with
  | some particle => return particle
  | none => throw (.malformed (.notPattern document.root.name.localName))

/-- The grammar of a document that stays within the limits. -/
def ofDocument (limits : Limits) (document : Xml.Document) : Except Error Grammar := do
  let particle ← rootParticle document
  limits.checkVisits 0 (Visit.ofNode 1 document.toNode)
  return particle.grammar

/-- The messages on the way to the grammar of a document. -/
def buildMessages (limits : Limits) (document : Xml.Document) : List Message :=
  match rootParticle document with
  | .error _ => []
  | .ok _ =>
    limits.skipMessages 0 (Visit.ofNode 1 document.toNode) ++
      match ofDocument limits document with
      | .error _ => []
      | .ok grammar => [⟨.debug, s!"Built grammar model with {grammar.size} nodes"⟩]

end RelaxDoc.Grammar
