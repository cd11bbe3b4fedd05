import RelaxDoc.Proofs.Grammar.Labels
import RelaxDoc.Proofs.Xml.Bindings

/-! The declarations that a grammar keeps. A node keeps those of its element that differ from what is in
force around it, and with those of its parents they give what the document has in force. -/
namespace RelaxDoc

open Xml (Address Declaration DeclareOnce Scope)

/-- The declarations kept of an element inside `outer`, with one more. -/
def Prefixes.keep (outer : Scope) (prefixes : Prefixes) (d : Declaration) : Prefixes :=
  match d.qualifier with
  | none => prefixes
  | some qualifier =>
    if outer.lookup (some qualifier) = some d.uri then prefixes else prefixes.insert qualifier d.uri

theorem newPrefixes_eq_foldl (outer : Scope) (declarations : List Declaration) :
    newPrefixes outer declarations = declarations.foldl (.keep outer) .empty := rfl

/-- To go through all that is in force at an element comes to the same as to go through what its tag
declares. What is inherited adds nothing. -/
theorem newPrefixes_append {outer : Scope} (declarations : List Declaration)
    {inherited : List Declaration} (same : ∀ d ∈ inherited, outer.lookup d.qualifier = some d.uri) :
    newPrefixes outer (declarations ++ inherited) = newPrefixes outer declarations := by
  rw [newPrefixes_eq_foldl, newPrefixes_eq_foldl, List.foldl_append]
  generalize declarations.foldl (Prefixes.keep outer) .empty = prefixes
  induction inherited with
  | nil => rfl
  | cons d rest ih =>
    obtain ⟨first, further⟩ := List.forall_mem_cons.1 same
    have idle : prefixes.keep outer d = prefixes := by
      rw [Prefixes.keep]
      split
      · rfl
      · rename_i qualifier known
        rw [if_pos (known ▸ first)]
    rw [List.foldl_cons, idle, ih further]

theorem Prefixes.get?_keep (outer : Scope) (prefixes : Prefixes) (d : Declaration)
    (qualifier : String) : (prefixes.keep outer d).get? qualifier =
      if d.qualifier = some qualifier ∧ outer.lookup (some qualifier) ≠ some d.uri then some d.uri
      else prefixes.get? qualifier := by
  unfold keep
  cases d.qualifier with
  | none => simp
  | some declared =>
    by_cases same : declared = qualifier
    · subst same
      by_cases inherited : outer.lookup (some declared) = some d.uri
      · simp [inherited]
      · simp [inherited, get?_insert]
    · dsimp only
      split
      · simp [same]
      · rw [get?_insert, if_neg (Ne.symm same)]
        simp [same]

theorem get?_foldl_keep {outer : Scope} {declarations : List Declaration}
    (once : DeclareOnce declarations) (qualifier : String) (prefixes : Prefixes) :
    (declarations.foldl (.keep outer) prefixes).get? qualifier =
      (if Scope.lookup declarations (some qualifier) = outer.lookup (some qualifier) then none
        else Scope.lookup declarations (some qualifier)).or (prefixes.get? qualifier) := by
  induction declarations generalizing prefixes with
  | nil =>
    rw [List.foldl_nil, show Scope.lookup [] (some qualifier) = none from rfl, ite_self]
    rfl
  | cons d rest ih =>
    rw [List.foldl_cons, ih once.tail, Scope.lookup_cons, Prefixes.get?_keep]
    by_cases same : d.qualifier = some qualifier
    · -- Behind its declaration the qualifier is not declared again.
      rw [once.lookup_tail same]
      by_cases inherited : outer.lookup (some qualifier) = some d.uri
      · simp [same, inherited]
      · simp [same, inherited, Ne.symm inherited]
    · simp [same]

/-- What a tag declares as it is around it is left out, and the rest is kept. -/
theorem get?_newPrefixes {outer : Scope} {declarations : List Declaration}
    (once : DeclareOnce declarations) (qualifier : String) :
    (newPrefixes outer declarations).get? qualifier =
      if Scope.lookup declarations (some qualifier) = outer.lookup (some qualifier) then none
      else Scope.lookup declarations (some qualifier) := by
  rw [newPrefixes_eq_foldl, get?_foldl_keep once, Prefixes.get?_empty, Option.or_none]

/-- What is left out is what is found further out. -/
theorem get?_newPrefixes_or {outer : Scope} {declarations : List Declaration}
    (once : DeclareOnce declarations) (qualifier : String) :
    ((newPrefixes outer declarations).get? qualifier).or (outer.lookup (some qualifier)) =
      (outer.enter declarations).lookup (some qualifier) := by
  rw [get?_newPrefixes once, Scope.lookup_enter]
  split
  · rename_i same
    rw [same, Option.none_or, Option.or_self]
  · rfl

namespace Xml.Node

variable {root node : Node} {following : List Node} {label : Label} {around : Address} {step : Nat}

theorem prefixes_of_labelAt?_nil {outer : Scope}
    (said : root.labelAt? outer following [] = some label) :
    label.prefixes = newPrefixes outer root.declarations := by
  cases root with
  | element tag children =>
    obtain ⟨kind, -, rfl⟩ := Option.map_eq_some_iff.1 said
    rfl
  | text | comment | instruction => cases said

/-- The declarations in force around an element are those in its parent. -/
theorem prefixes_of_labelAt?_concat {outer : Scope}
    (said : root.labelAt? outer following (around ++ [step]) = some label)
    (found : root.at? (around ++ [step]) = some node) :
    label.prefixes = newPrefixes (root.scopeAt outer around) node.declarations := by
  induction around generalizing root outer following with
  | nil =>
    obtain ⟨child, here, top⟩ := at?_cons.1 found
    cases top
    cases root with
    | element tag children =>
      obtain ⟨child, there, said⟩ := Option.bind_eq_some_iff.1 said
      cases here.symm.trans there
      exact prefixes_of_labelAt?_nil said
    | text | comment | instruction => cases said
  | cons index rest ih =>
    obtain ⟨child, here, below⟩ := at?_cons.1 found
    cases root with
    | element tag children =>
      obtain ⟨child, there, said⟩ := Option.bind_eq_some_iff.1 said
      cases here.symm.trans there
      rw [scopeAt]
      simp only [here]
      exact ih said below
    | text | comment | instruction => cases said

end Xml.Node

namespace Grammar

/-- The declarations that are kept for a node give every qualifier the meaning that it has at an
address of a tree. -/
structure ScopedAs (g : Grammar) (id : Nat) (root : Xml.Node) (address : Address) : Prop where
  /-- The node itself keeps what its element declares, unless it stands for that in the parent too. -/
  kept : ∀ qualifier, qualifier ≠ "xml" → ∀ uri,
    (g.node id).prefixes.get? qualifier = some uri ↔
      root.DeclaresAt address qualifier uri ∧
        ∀ around step, address = around ++ [step] → ¬ root.Binds around qualifier uri
  bound : ∀ qualifier, qualifier ≠ "xml" → ∀ uri,
    ((g.scopes id).findSome? fun scope => scope.get? qualifier) = some uri ↔
      root.Binds address qualifier uri
  unbound : ∀ qualifier, qualifier ≠ "xml" →
    (((g.scopes id).findSome? fun scope => scope.get? qualifier) = none ↔
      root.Unbound address qualifier)
  resolved : ∀ name uri, resolveQualified name (g.scopes id) = some uri ↔
    ∃ qualifier, (Name.split name).1 = some qualifier ∧
      if qualifier = "xml" then uri = Xml.xmlUri else root.Binds address qualifier uri

variable {g : Grammar} {limits : Limits} {document : Xml.Document} {id : Nat} {address : Address}

theorem scopes_of_parent {outer : Nat} (above : g.parent? id = some outer) :
    g.scopes id = (g.node id).prefixes :: g.scopes outer := by
  rw [Arena.scopes, Arena.scopes, ancestors_of_parent above]
  rfl

theorem scopes_of_orphan (orphan : g.parent? id = none) : g.scopes id = [(g.node id).prefixes] := by
  rw [Arena.scopes, ancestors_of_orphan orphan]
  rfl

theorem get?_prefixes_root (read : ofDocument limits document = .ok g)
    (once : document.toNode.DeclaresOnce)
    (found : (keptAddresses document.toNode)[id]? = some []) (qualifier : String) :
    (g.node id).prefixes.get? qualifier =
      Scope.lookup document.toNode.declarations (some qualifier) := by
  obtain ⟨label, said, tells⟩ := quotes_of_read read found
  have top : document.toNode.at? [] = some document.toNode := rfl
  have here := Xml.Node.declareOnce_declarations once top
  rw [tells.prefixes, Xml.Node.prefixes_of_labelAt?_nil said, get?_newPrefixes here]
  split
  · rename_i same
    exact same.symm
  · rfl

theorem prefixes_child (read : ofDocument limits document = .ok g) {around : Address} {step : Nat}
    {node : Xml.Node} (found : (keptAddresses document.toNode)[id]? = some (around ++ [step]))
    (reached : document.toNode.at? (around ++ [step]) = some node) :
    (g.node id).prefixes = newPrefixes (document.toNode.scopeAt [] around) node.declarations := by
  obtain ⟨label, said, tells⟩ := quotes_of_read read found
  rw [tells.prefixes, Xml.Node.prefixes_of_labelAt?_concat said reached]

/-- The first declaration among those of a node and its parents is the one in force at its element. -/
theorem findSome?_scopes (read : ofDocument limits document = .ok g)
    (once : document.toNode.DeclaresOnce)
    (found : (keptAddresses document.toNode)[id]? = some address) (qualifier : String) :
    ((g.scopes id).findSome? fun scope => scope.get? qualifier) =
      (document.toNode.scopeAt [] address).lookup (some qualifier) := by
  have enumerates := enumerates_of_read read
  -- The parent of a node has the address of the element around.
  induction address using List.reverseRecOn generalizing id with
  | nil =>
    rw [scopes_of_orphan (enumerates.parent?_of_nil found), List.findSome?_singleton,
      get?_prefixes_root read once found, Xml.Node.scopeAt, Scope.enter, List.append_nil]
  | append_singleton around step ih =>
    obtain ⟨outer, above, there⟩ := enumerates.parent id around step found
    obtain ⟨⟨node, _, reached, _⟩, _⟩ := enumerates.retained found
    have here := Xml.Node.declareOnce_declarations once reached
    rw [scopes_of_parent above, List.findSome?_cons, prefixes_child read found reached,
      Xml.Node.scopeAt_concat [] reached, ← get?_newPrefixes_or here, ← ih there]
    cases (newPrefixes (document.toNode.scopeAt [] around) node.declarations).get? qualifier <;> rfl

theorem get?_prefixes_eq_some_iff (read : ofDocument limits document = .ok g)
    (once : document.toNode.DeclaresOnce)
    (found : (keptAddresses document.toNode)[id]? = some address) {qualifier uri : String} :
    (g.node id).prefixes.get? qualifier = some uri ↔
      document.toNode.DeclaresAt address qualifier uri ∧
        ∀ around step, address = around ++ [step] →
          ¬ document.toNode.Binds around qualifier uri := by
  obtain ⟨⟨node, _, reached, _⟩, _⟩ := (enumerates_of_read read).retained found
  have here := Xml.Node.declareOnce_declarations once reached
  rw [Xml.Node.declaresAt_iff reached, ← here.lookup_eq_some_iff]
  rcases List.eq_nil_or_concat address with rfl | ⟨around, step, rfl⟩
  · rw [get?_prefixes_root read once found]
    cases reached
    simp
  · rw [List.concat_eq_append] at found reached ⊢
    obtain ⟨outer, above, _⟩ := Xml.Node.at?_concat_iff.1 reached
    rw [prefixes_child read found reached, get?_newPrefixes here]
    constructor
    · intro kept
      split at kept
      · cases kept
      · rename_i differs
        refine ⟨kept, fun around' step' same binds => differs ?_⟩
        cases (List.append_inj' same rfl).1
        rw [kept, (Xml.Node.lookup_scopeAt_eq_some_iff once above).2 binds]
    · intro ⟨declared, differs⟩
      rw [if_neg, declared]
      intro same
      rw [declared] at same
      exact differs around step rfl ((Xml.Node.lookup_scopeAt_eq_some_iff once above).1 same.symm)

theorem scopedAs_of_read (read : ofDocument limits document = .ok g)
    (once : document.toNode.DeclaresOnce)
    (found : (keptAddresses document.toNode)[id]? = some address) :
    g.ScopedAs id document.toNode address := by
  obtain ⟨⟨node, _, reached, _⟩, _⟩ := (enumerates_of_read read).retained found
  have first (qualifier : String) := findSome?_scopes read once found qualifier
  have bound {qualifier uri : String} :
      ((g.scopes id).findSome? fun scope => scope.get? qualifier) = some uri ↔
        document.toNode.Binds address qualifier uri := by
    rw [first, Xml.Node.lookup_scopeAt_eq_some_iff once reached]
  refine ⟨fun _ _ _ => get?_prefixes_eq_some_iff read once found, fun _ _ _ => bound, ?_, ?_⟩
  · intro qualifier _
    rw [first, Xml.Node.lookup_scopeAt_eq_none_iff reached]
  · intro name uri
    rw [resolveQualified]
    cases (Name.split name).1 with
    | none => simp
    | some qualifier =>
      by_cases xml : qualifier = "xml"
      · simp [xml, eq_comm]
      · simp [xml, bound]

/-- The declarations in the grammar of a document have the scopes that they have in the document, at
every element that is kept. No more is asked of the document than is true of any that is written. -/
theorem scopedAs_document (once : document.toNode.DeclaresOnce)
    (read : ofDocument limits document = .ok g) :
    ∃ addresses, g.Enumerates document.toNode addresses ∧
      ∀ id address, addresses[id]? = some address → g.ScopedAs id document.toNode address :=
  ⟨_, enumerates_of_read read, fun _ _ found => scopedAs_of_read read once found⟩

/-- A schema in which a qualifier is declared, declared differently, and then as before. -/
def restoredText : String :=
  "<grammar xmlns=\"http://relaxng.org/ns/structure/1.0\" xmlns:p=\"u\"><start xmlns:p=\"v\">" ++
    "<element name=\"p:e\" xmlns:p=\"u\"><empty/></element></start></grammar>"

/-- What the qualifier `p` stands for at a node, by the declarations that are kept. -/
def meaning (g : Grammar) (id : Nat) : Option String :=
  (g.scopes id).findSome? fun scope => scope.get? "p"

theorem restored_meaning : ((Xml.Document.ofText restoredText).toOption.bind fun document =>
    (ofDocument .standard document).toOption.map fun g => (g.size, g.meaning 1, g.meaning 2)) =
      some (4, some "v", some "u") := by decide +kernel

theorem restored_scopedAs : ∃ document g addresses, Xml.Document.ofText restoredText = .ok document ∧
    ofDocument .standard document = .ok g ∧ g.Enumerates document.toNode addresses ∧
      ∃ start element, addresses[1]? = some start ∧ document.toNode.Binds start "p" "v" ∧
        addresses[2]? = some element ∧ document.toNode.Binds element "p" "u" := by
  have known := restored_meaning
  cases written : Xml.Document.ofText restoredText with
  | error fault =>
    rw [written] at known
    cases known
  | ok document =>
    cases read : ofDocument .standard document with
    | error fault =>
      rw [written, Except.toOption, Option.bind_some, read] at known
      cases known
    | ok g =>
      rw [written, Except.toOption, Option.bind_some, read] at known
      simp only [Except.toOption, Option.map_some, Option.some.injEq, Prod.mk.injEq] at known
      obtain ⟨size, outside, inside⟩ := known
      obtain ⟨addresses, enumerates, scopes⟩ :=
        scopedAs_document (Xml.Document.declaresOnce_of_ofText written) read
      obtain ⟨start, first⟩ := enumerates.exists_address (show 1 < g.size by omega)
      obtain ⟨element, second⟩ := enumerates.exists_address (show 2 < g.size by omega)
      have different : "p" ≠ "xml" := by decide
      refine ⟨document, g, addresses, rfl, read, enumerates, start, element, first, ?_, second, ?_⟩
      · exact ((scopes 1 start first).bound "p" different "v").1 outside
      · exact ((scopes 2 element second).bound "p" different "u").1 inside

end Grammar

end RelaxDoc
