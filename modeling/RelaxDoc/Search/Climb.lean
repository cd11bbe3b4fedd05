import RelaxDoc.Search.Weight

/-! Searches upwards, from a definition on to all references to it. -/
namespace RelaxDoc.Grammar

theorem mem_references_of_mem_referencesTo {g : Grammar} {key : DefineKey} {id : Nat}
    (member : id ∈ g.referencesTo key) : key ∈ g.table.references.map Prod.fst :=
  KeyIndex.mem_keys_of_mem_find member

/-- Whether a node of kind `wrapper` stands above pending nodes, or is one, with no
node of kind `stop` on the way. The references to the keys in `visited` are pending already. -/
def searchAbove (g : Grammar) (wrapper stop : Kind) (pending : List Nat)
    (visited : List DefineKey) : Bool :=
  match pending with
  | [] => false
  | id :: rest =>
    have weights := Search.parents_lt_above g.toArena id
    if g.kind id = stop then g.searchAbove wrapper stop rest visited
    else if g.kind id = wrapper then true
    else
      match (if g.kind id = .define then g.defineKey? id else none) with
      | none => g.searchAbove wrapper stop (rest ++ (g.parent? id).toList) visited
      | some key =>
        if fresh : visited.contains key then
          g.searchAbove wrapper stop (rest ++ (g.parent? id).toList) visited
        else
          have fewer := Search.unvisited_cons_le g.table.references visited key
          match found : g.referencesTo key with
          | [] => g.searchAbove wrapper stop (rest ++ (g.parent? id).toList) (key :: visited)
          | first :: more =>
            have member : first ∈ g.referencesTo key := by simp [found]
            have known := mem_references_of_mem_referencesTo member
            have less := Search.unvisited_cons_lt known (by simpa using fresh)
            g.searchAbove wrapper stop (rest ++ (first :: more) ++ (g.parent? id).toList)
              (key :: visited)
termination_by (Search.unvisited g.table.references visited, Search.pendingAbove pending)
decreasing_by
  all_goals simp only [Prod.lex_def, Search.pendingAbove_append, Search.pendingAbove_cons, true_and]
  all_goals omega

/-- Whether a node of kind `wrapper` stands above a node, with no node of kind `stop` on
the way. -/
def climb (g : Grammar) (id : Nat) (wrapper stop : Kind) : Bool :=
  g.searchAbove wrapper stop (g.parent? id).toList []

end RelaxDoc.Grammar
