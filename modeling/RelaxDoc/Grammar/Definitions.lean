import RelaxDoc.Grammar.Arena
import RelaxDoc.Lookup

/-! Definitions by name and scope, and the references that lead to them. -/
namespace RelaxDoc

/-- What a definition is known by: the nearest grammar around it, if any, and its name. -/
structure DefineKey where
  scope : Option Nat
  name : String
  deriving DecidableEq, Repr

/-- The key of a definition or of the definitions a reference stands for. A `parentRef`
looks one grammar further out. -/
def Arena.defineKey? (a : Arena) (id : Nat) : Option DefineKey :=
  let inner := a.enclosing? id .grammar
  match (a.node id).name? with
  | none => none
  | some name =>
    match a.kind id with
    | .define | .ref => some ⟨inner, name⟩
    | .parentRef => some ⟨inner.bind fun grammar => a.enclosing? grammar .grammar, name⟩
    | _ => none

/-- Nodes by key, with the keys in the order they were first seen. -/
abbrev KeyIndex := List (DefineKey × List Nat)

namespace KeyIndex

/-- Adds a node under a key. -/
def add (key : DefineKey) (id : Nat) : KeyIndex → KeyIndex
  | [] => [(key, [id])]
  | entry :: rest =>
    if entry.1 = key then (key, entry.2 ++ [id]) :: rest else entry :: add key id rest

/-- The nodes under a key. -/
def find (index : KeyIndex) (key : DefineKey) : List Nat := (index.lookup key).getD []

/-- The index of nodes with their keys. -/
def ofPairs (pairs : List (DefineKey × Nat)) : KeyIndex :=
  pairs.foldl (fun index pair => add pair.1 pair.2 index) []

theorem find_cons (entry : DefineKey × List Nat) (rest : KeyIndex) (key : DefineKey) :
    find (entry :: rest) key = if key = entry.1 then entry.2 else find rest key := by
  rw [find, lookup_cons_ite]
  split <;> rfl

theorem find_add (index : KeyIndex) (key other : DefineKey) (id : Nat) :
    (add key id index).find other =
      if other = key then index.find other ++ [id] else index.find other := by
  induction index with
  | nil => rw [add, find_cons]; rfl
  | cons entry rest ih =>
    rw [add]
    by_cases here : entry.1 = key
    · rw [if_pos here, find_cons, find_cons, here]
      split <;> rfl
    · rw [if_neg here, find_cons, find_cons, ih]
      by_cases same : other = entry.1
      · rw [if_pos same, if_neg (same ▸ here), if_pos same]
      · rw [if_neg same, if_neg same]

theorem find_foldl (pairs : List (DefineKey × Nat)) (index : KeyIndex) (key : DefineKey) :
    (pairs.foldl (fun index pair => add pair.1 pair.2 index) index).find key =
      index.find key ++ pairs.filterMap fun pair => if pair.1 = key then some pair.2 else none := by
  induction pairs generalizing index with
  | nil => simp
  | cons pair rest ih =>
    rw [List.foldl_cons, ih, find_add, List.filterMap_cons]
    by_cases same : pair.1 = key
    · simp [same]
    · simp [same, Ne.symm same]

/-- An index holds under each key the nodes that came with it, in their order. -/
theorem find_ofPairs (pairs : List (DefineKey × Nat)) (key : DefineKey) :
    (ofPairs pairs).find key =
      pairs.filterMap fun pair => if pair.1 = key then some pair.2 else none := by
  rw [ofPairs, find_foldl]
  simp [find]

theorem mem_keys_of_mem_find {index : KeyIndex} {key : DefineKey} {id : Nat}
    (member : id ∈ index.find key) : key ∈ index.map Prod.fst := by
  cases found : index.lookup key with
  | none => simp [find, found] at member
  | some ids => exact mem_keys_of_lookup_eq_some found

end KeyIndex

/-- The definitions of a grammar and the references to them, by key. -/
structure Definitions where
  defines : KeyIndex
  references : KeyIndex
  deriving DecidableEq, Repr

namespace Arena

/-- The nodes that satisfy `wanted` and have a key, with their keys. -/
def keyed (a : Arena) (wanted : Kind → Bool) : List (DefineKey × Nat) :=
  a.ids.filterMap fun id =>
    if wanted (a.kind id) then (a.defineKey? id).map fun key => (key, id) else none

/-- The definitions of an arena and the references to them. -/
def definitions (a : Arena) : Definitions where
  defines := .ofPairs (a.keyed (· = .define))
  references := .ofPairs (a.keyed Kind.isReference)

end Arena

/-- A grammar: its nodes, with its definitions at hand. -/
structure Grammar extends Arena where
  table : Definitions
  table_eq : table = toArena.definitions

namespace Grammar

/-- The grammar of an arena. -/
def ofArena (a : Arena) : Grammar := ⟨a, a.definitions, rfl⟩

/-- The keys that have a definition, in the order they were first seen. -/
def definedKeys (g : Grammar) : List DefineKey := g.table.defines.map Prod.fst

/-- The definitions under a key, in document order. -/
def definesOf (g : Grammar) (key : DefineKey) : List Nat := g.table.defines.find key

/-- The references that stand for the definitions under a key, in document order. -/
def referencesTo (g : Grammar) (key : DefineKey) : List Nat := g.table.references.find key

/-- The children of all definitions under a key. -/
def expansion (g : Grammar) (key : DefineKey) : List Nat :=
  (g.definesOf key).flatMap g.children

/-- The children of the definitions that a reference stands for. -/
def deref (g : Grammar) (id : Nat) : List Nat :=
  match g.defineKey? id with
  | some key => g.expansion key
  | none => []

end Grammar

end RelaxDoc
