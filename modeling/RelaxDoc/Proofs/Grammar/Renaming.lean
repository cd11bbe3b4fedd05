import RelaxDoc.Proofs.Grammar.Labels
import RelaxDoc.Proofs.Record.Echoes

/-! Other names for definitions. Within a scope different names stay different; the names of one
scope have nothing to do with those of another. -/
namespace RelaxDoc

/-- New names for the definitions of every scope, different for different names of one scope. -/
structure Renaming where
  rename : Option Nat → String → String
  injective : ∀ scope, Function.Injective (rename scope)

/-- The key of a definition under its new name. -/
def Renaming.key (names : Renaming) (key : DefineKey) : DefineKey :=
  ⟨key.scope, names.rename key.scope key.name⟩

theorem Renaming.key_injective (names : Renaming) : Function.Injective names.key := by
  rintro ⟨scope, name⟩ ⟨other, again⟩ same
  obtain ⟨rfl, new⟩ := DefineKey.mk.inj same
  exact congrArg (DefineKey.mk scope) (names.injective scope new)

/-- Names that tell the scopes apart: in front of the old one, the scope is counted in letters. -/
def apartName (scope : Option Nat) (name : String) : String :=
  String.ofList (List.replicate (scope.elim 0 (· + 1)) 'i' ++ 'n' :: name.toList)

/-- Copies of a mark in front of something else can be counted. -/
theorem replicate_append_inj {mark stop : Char} (other : mark ≠ stop) {m n : Nat}
    {cs ds : List Char}
    (same : List.replicate m mark ++ stop :: cs = List.replicate n mark ++ stop :: ds) :
    m = n ∧ cs = ds := by
  induction m generalizing n with
  | zero =>
    cases n with
    | zero => simpa using same
    | succ n => simp [List.replicate_succ, other.symm] at same
  | succ m ih =>
    cases n with
    | zero => simp [List.replicate_succ, other] at same
    | succ n =>
      simp only [List.replicate_succ, List.cons_append, List.cons.injEq, true_and] at same
      simpa using ih same

theorem apartName_inj {scope other : Option Nat} {name further : String}
    (same : apartName scope name = apartName other further) : scope = other ∧ name = further := by
  obtain ⟨counts, rest⟩ := replicate_append_inj (by decide) (String.ofList_injective same)
  refine ⟨?_, String.toList_injective rest⟩
  cases scope <;> cases other <;> simp_all

/-- New names that no two scopes share. -/
def Renaming.apart : Renaming where
  rename := apartName
  injective _ _ _ same := (apartName_inj same).2

/-- Attributes with another value for `name`, if they have one. -/
def putName (name : String) (attributes : List (String × String)) : List (String × String) :=
  attributes.map fun entry => if entry.1 = "name" then (entry.1, name) else entry

theorem lookup_putName (name other : String) (attributes : List (String × String)) :
    (putName name attributes).lookup other =
      if other = "name" then (attributes.lookup other).map fun _ => name
      else attributes.lookup other := by
  induction attributes with
  | nil => simp [putName]
  | cons entry rest ih =>
    rw [putName, List.map_cons, lookup_cons_ite, lookup_cons_ite]
    change (if _ then _ else (putName name rest).lookup other) = _
    rw [ih]
    by_cases named : entry.1 = "name"
    · by_cases same : other = "name" <;> simp [named, same]
    · by_cases here : other = entry.1 <;> simp [here, named]

/-- The node with another value for its `name`, if it has one. -/
def Node.withName (name : String) (node : Node) : Node :=
  { node with attributes := putName name node.attributes }

theorem Node.name?_withName (name : String) (node : Node) :
    (node.withName name).name? = node.name?.map fun _ => name :=
  lookup_putName name "name" node.attributes

theorem Node.attribute?_withName (name : String) (node : Node) {other : String}
    (different : other ≠ "name") : (node.withName name).attribute? other = node.attribute? other :=
  (lookup_putName name other node.attributes).trans (if_neg different)

namespace Grammar

variable (g : Grammar) (names : Renaming)

/-- The new name of a definition or a reference. -/
def newName? (id : Nat) : Option String :=
  (g.defineKey? id).map fun key => (names.key key).name

/-- A node under its new name, if it is a definition or a reference. -/
def renamedNode (id : Nat) : Node :=
  (g.newName? names id).elim (g.node id) fun name => (g.node id).withName name

theorem renamedNode_cases (id : Nat) :
    (g.defineKey? id = none ∧ g.renamedNode names id = g.node id) ∨
      ∃ key, g.defineKey? id = some key ∧
        g.renamedNode names id = (g.node id).withName (names.key key).name := by
  unfold renamedNode newName?
  cases g.defineKey? id with
  | none => exact .inl ⟨rfl, rfl⟩
  | some key => exact .inr ⟨key, rfl, rfl⟩

/-- A new name changes nothing but the attributes. -/
theorem renamedNode_eq (id : Nat) : g.renamedNode names id =
    { g.node id with attributes := (g.renamedNode names id).attributes } := by
  rcases g.renamedNode_cases names id with ⟨_, same⟩ | ⟨_, _, same⟩
  · rw [same]
  · rw [same]
    rfl

theorem nodeAt_renamed (id : Nat) :
    nodeAt ((List.range g.size).map (g.renamedNode names)).toArray id =
      g.renamedNode names id := by
  rw [Particle.nodeAt_eq]
  by_cases inside : id < g.size
  · simp [inside]
  · have blank : g.node id = .blank := node_of_size_le (Nat.le_of_not_lt inside)
    have unnamed : g.defineKey? id = none := by
      rw [Arena.defineKey?, blank]
      rfl
    simp [inside, renamedNode, newName?, unnamed, blank]

/-- The grammar whose definitions and references have new names. -/
def renamed : Grammar := .ofArena {
  nodes := ((List.range g.size).map (g.renamedNode names)).toArray
  parent_lt := by
    intro id parent above
    rw [nodeAt_renamed, renamedNode_eq] at above
    exact g.parent_lt id parent above
  lt_child := by
    intro id child member
    rw [nodeAt_renamed, renamedNode_eq] at member
    exact g.lt_child id child member
  child_lt := by
    intro id child member
    rw [nodeAt_renamed, renamedNode_eq] at member
    simpa [Arena.size] using g.child_lt id child member
  children_increase := by
    intro id
    rw [nodeAt_renamed, renamedNode_eq]
    exact g.children_increase id }

variable {g names}

theorem node_renamed (id : Nat) : (g.renamed names).node id = g.renamedNode names id :=
  g.nodeAt_renamed names id

theorem size_renamed : (g.renamed names).size = g.size := by
  simp [renamed, ofArena, Arena.size]

theorem kind_renamed (id : Nat) : (g.renamed names).kind id = g.kind id := by
  rw [Arena.kind, node_renamed, renamedNode_eq]
  rfl

theorem children_renamed (id : Nat) : (g.renamed names).children id = g.children id := by
  rw [Arena.children, node_renamed, renamedNode_eq]
  rfl

theorem parent?_renamed (id : Nat) : (g.renamed names).parent? id = g.parent? id := by
  rw [Arena.parent?, node_renamed, renamedNode_eq]
  rfl

theorem attribute?_renamed {other : String} (different : other ≠ "name") (id : Nat) :
    ((g.renamed names).node id).attribute? other = (g.node id).attribute? other := by
  rw [node_renamed]
  rcases g.renamedNode_cases names id with ⟨_, same⟩ | ⟨key, _, same⟩
  · rw [same]
  · rw [same, Node.attribute?_withName _ _ different]

/-- What has a key has a name. -/
theorem exists_name_of_defineKey? {id : Nat} {key : DefineKey} (named : g.defineKey? id = some key) :
    ∃ name, (g.node id).name? = some name := by
  unfold Arena.defineKey? at named
  cases found : (g.node id).name? with
  | none => simp [found] at named
  | some name => exact ⟨name, rfl⟩

theorem name?_renamed (id : Nat) : ((g.renamed names).node id).name? =
    (g.newName? names id <|> (g.node id).name?) := by
  rw [node_renamed, newName?]
  rcases g.renamedNode_cases names id with ⟨unnamed, same⟩ | ⟨key, named, same⟩
  · rw [same, unnamed]
    rfl
  · obtain ⟨name, found⟩ := exists_name_of_defineKey? named
    rw [same, named, Node.name?_withName, found]
    rfl

/-- Only definitions and references have other attributes. -/
theorem renamedNode_of_plain {id : Nat} (define : g.kind id ≠ .define)
    (refers : (g.kind id).isReference = false) : g.renamedNode names id = g.node id := by
  rcases g.renamedNode_cases names id with ⟨_, same⟩ | ⟨key, named, _⟩
  · exact same
  · obtain ⟨name, found⟩ := exists_name_of_defineKey? named
    unfold Arena.defineKey? at named
    cases kind : g.kind id <;> simp_all [Kind.isReference]

theorem aligned_renamed : g.Aligned (g.renamed names) id where
  bijective := Function.bijective_id
  kind := kind_renamed
  parent node := (parent?_renamed node).trans (Option.map_id_apply).symm

/-- A definition or a reference has the new name in the scope that it had. -/
theorem defineKey?_renamed (id : Nat) :
    (g.renamed names).defineKey? id = (g.defineKey? id).map names.key := by
  have scope (node : Nat) : (g.renamed names).enclosing? node .grammar =
      g.enclosing? node .grammar := by
    simpa using aligned_renamed.enclosing? node .grammar
  have name : ((g.renamed names).node id).name? = (g.newName? names id <|> (g.node id).name?) :=
    name?_renamed id
  unfold newName? at name
  unfold Arena.defineKey? at name ⊢
  rw [kind_renamed, scope]
  cases found : (g.node id).name? with
  | none => simp_all
  | some old => cases kind : g.kind id <;> simp_all [Renaming.key]

theorem definesOf_renamed (key : DefineKey) :
    (g.renamed names).definesOf (names.key key) = g.definesOf key := by
  rw [definesOf_eq, definesOf_eq, Arena.ids, Arena.ids, size_renamed]
  congr 1
  funext id
  rw [kind_renamed, defineKey?_renamed]
  simp [Option.map_eq_some_iff, names.key_injective.eq_iff]

/-- The searches see the definitions of the renamed grammar under the new keys. -/
theorem echoes_renamed : g.Echoes (g.renamed names) id names.key where
  toAligned := aligned_renamed
  distinct := names.key_injective
  children node _ := (children_renamed node).trans (List.map_id _).symm
  key node := defineKey?_renamed node
  defines key := (definesOf_renamed key).trans (List.map_id _).symm
  unnamed node pattern := by
    have plain : g.renamedNode names node = g.node node := by
      apply renamedNode_of_plain
      · rcases pattern with kind | kind <;> rw [kind] <;> decide
      · rcases pattern with kind | kind <;> rw [kind] <;> rfl
    rw [id_eq, node_renamed, plain]
  attributes node define refers := by
    rw [node_renamed]
    exact congrArg Node.attributes (renamedNode_of_plain define refers)
  ns node := attribute?_renamed (by decide) node
  text node := by
    rw [node_renamed, renamedNode_eq]
    rfl
  prefixes node := by
    rw [node_renamed, renamedNode_eq]
    rfl
  remark node _ _ _ := by
    rw [node_renamed, renamedNode_eq]
    exact Option.map_id_apply.symm

end Grammar

end RelaxDoc
