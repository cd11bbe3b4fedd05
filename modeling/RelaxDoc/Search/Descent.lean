import RelaxDoc.Search.Weight

/-! Searches downwards. References are expanded in place, each key once in a search; elements
and attributes are boundaries, and what is searched for is not entered. -/
namespace RelaxDoc

/-- What a search downwards comes to: a node that is searched for, or a reference to
nothing. -/
inductive Finding where
  | node (id : Nat)
  | unresolved (name : String)
  deriving DecidableEq, Repr

namespace Finding

/-- The node of a finding. -/
def node? : Finding → Option Nat
  | .node id => some id
  | .unresolved _ => none

/-- The name that a finding could not resolve. -/
def unresolved? : Finding → Option String
  | .node _ => none
  | .unresolved name => some name

end Finding

namespace Grammar

theorem mem_defines_of_mem_definesOf {g : Grammar} {key : DefineKey} {id : Nat}
    (member : id ∈ g.definesOf key) : key ∈ g.table.defines.map Prod.fst :=
  KeyIndex.mem_keys_of_mem_find member

/-- The findings below pending nodes when the keys in `visited` are expanded already. -/
def searchBelow (g : Grammar) (target : Kind) (pending : List Nat) (visited : List DefineKey) :
    List Finding :=
  match pending with
  | [] => []
  | id :: rest =>
    have weight := Search.below_pos g.size id
    have weights := Search.children_lt_below g.toArena id
    if g.kind id = target then .node id :: g.searchBelow target rest visited
    else if g.kind id = .element ∨ g.kind id = .attr then g.searchBelow target rest visited
    else if (g.kind id).isReference then
      match g.defineKey? id with
      | none => g.searchBelow target rest visited
      | some key =>
        if fresh : visited.contains key then g.searchBelow target rest visited
        else
          have fewer := Search.unvisited_cons_le g.table.defines visited key
          match found : g.definesOf key with
          | [] => .unresolved key.name :: g.searchBelow target rest (key :: visited)
          | first :: _ =>
            have member : first ∈ g.definesOf key := by simp [found]
            have known := mem_defines_of_mem_definesOf member
            have less := Search.unvisited_cons_lt known (by simpa using fresh)
            g.searchBelow target (g.expansion key ++ rest) (key :: visited)
    else g.searchBelow target (g.children id ++ rest) visited
termination_by (Search.unvisited g.table.defines visited, Search.pendingBelow g.size pending)
decreasing_by
  all_goals simp only [Prod.lex_def, Search.pendingBelow_append, Search.pendingBelow_cons, true_and]
  all_goals omega

/-- The findings of a search for a kind below a node. -/
def findings (g : Grammar) (id : Nat) (target : Kind) : List Finding :=
  g.searchBelow target (g.contentChildren id) []

/-- The nodes of a kind below a node, in the order of expansion. -/
def descend (g : Grammar) (id : Nat) (target : Kind) : List Nat :=
  (g.findings id target).filterMap Finding.node?

/-- The first node of a kind below a node. -/
def firstBelow? (g : Grammar) (id : Nat) (target : Kind) : Option Nat :=
  (g.descend id target).head?

end Grammar

end RelaxDoc
