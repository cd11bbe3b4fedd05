import RelaxDoc.Lookup
import RelaxDoc.Name
import RelaxDoc.Namespace

/-! The qualifiers a node declares, and what a qualified name resolves to through the
declarations of a node and of the nodes around it. -/
namespace RelaxDoc

/-- The namespaces that the qualifiers of one node stand for, in the order of their
first declaration. -/
structure Prefixes where
  entries : List (String × String)
  deriving DecidableEq, Repr

namespace Prefixes

/-- No declaration. -/
def empty : Prefixes := ⟨[]⟩

/-- Whether nothing is declared. -/
def isEmpty (p : Prefixes) : Bool := p.entries.isEmpty

/-- The entries with `qualifier` bound to `uri`, in its old place or else at the end. -/
def bind (qualifier uri : String) : List (String × String) → List (String × String)
  | [] => [(qualifier, uri)]
  | entry :: rest =>
    if entry.1 = qualifier then (qualifier, uri) :: rest else entry :: bind qualifier uri rest

/-- Declares a qualifier, again or for the first time. -/
def insert (p : Prefixes) (qualifier uri : String) : Prefixes :=
  ⟨bind qualifier uri p.entries⟩

/-- The namespace that a qualifier stands for. -/
def get? (p : Prefixes) (qualifier : String) : Option String := p.entries.lookup qualifier

theorem get?_empty (qualifier : String) : empty.get? qualifier = none := rfl

theorem lookup_bind (qualifier uri other : String) (entries : List (String × String)) :
    (bind qualifier uri entries).lookup other =
      if other = qualifier then some uri else entries.lookup other := by
  induction entries with
  | nil => rw [bind, lookup_cons_ite]
  | cons entry rest ih =>
    rw [bind]
    by_cases here : entry.1 = qualifier
    · rw [if_pos here, lookup_cons_ite, lookup_cons_ite, here]
      split <;> rfl
    · rw [if_neg here, lookup_cons_ite, lookup_cons_ite, ih]
      by_cases same : other = entry.1
      · rw [if_pos same, if_neg (same ▸ here), if_pos same]
      · rw [if_neg same, if_neg same]

theorem get?_insert (p : Prefixes) (qualifier uri other : String) :
    (p.insert qualifier uri).get? other =
      if other = qualifier then some uri else p.get? other :=
  lookup_bind qualifier uri other p.entries

end Prefixes

/-- The namespace that the qualifier of a name stands for, seen from the innermost of
`scopes`. A name without a qualifier has none, and `xml` is always bound. -/
def resolveQualified (name : String) (scopes : List Prefixes) : Option String :=
  match (Name.split name).1 with
  | none => none
  | some qualifier =>
    if qualifier = "xml" then some Xml.xmlUri
    else scopes.findSome? fun scope => scope.get? qualifier

end RelaxDoc
