import RelaxDoc.Diagram.Draw
import RelaxDoc.Proofs.Grammar.Addresses
import RelaxDoc.Proofs.Search.Unfolding

/-! Drawings step by step, and what a diagram shows: every node is a pattern itself or a reference,
and in a simple diagram the patterns are those that a search downwards comes to. -/
namespace RelaxDoc

/-- The pattern that a stroke draws itself, and not as a reference. -/
def Stroke.pattern? : Stroke → Option Nat
  | .draw _ id node => if node.reference then none else some id
  | .unresolved _ => none

namespace Grammar

variable {g : Grammar} {detail : Detail}

/-- The stroke for the key of a reference to nothing. -/
def notice (g : Grammar) (key : DefineKey) : List Stroke :=
  if g.definesOf key = [] then [.unresolved key.name] else []

/-- Drawing pending nodes, each below the node at a position, with the keys in `visited` drawn and
`next` the position of the next node, makes the strokes. -/
inductive Drawing (g : Grammar) (detail : Detail) : (pending : List (Nat × Nat)) →
    (visited : List DefineKey) → (next : Nat) → (drawn : List Stroke) → Prop where
  | done : Drawing g detail [] visited next []
  /-- Documentation and references without a name are passed. -/
  | pass {id parent : Nat} (idle : g.kind id = .documentation ∨
        (g.kind id).isReference = true ∧ g.defineKey? id = none)
      (rest : Drawing g detail pending visited next drawn) :
      Drawing g detail ((id, parent) :: pending) visited next drawn
  /-- A reference by a key that was met before is drawn as such. -/
  | again {id parent : Nat} (refers : (g.kind id).isReference = true)
      (named : g.defineKey? id = some key) (old : key ∈ visited)
      (rest : Drawing g detail pending visited (next + 1) drawn) :
      Drawing g detail ((id, parent) :: pending) visited next
        (.draw parent id ⟨g.kind id, key.name, true⟩ :: drawn)
  /-- A reference by a new key is replaced by the children of its definitions. -/
  | expand {id parent : Nat} (refers : (g.kind id).isReference = true)
      (named : g.defineKey? id = some key) (fresh : key ∉ visited)
      (rest : Drawing g detail ((g.expansion key).map (·, parent) ++ pending) (key :: visited) next
        drawn) :
      Drawing g detail ((id, parent) :: pending) visited next (g.notice key ++ drawn)
  /-- A node that is not drawn itself is replaced by its children. -/
  | collapse {id parent : Nat} (other : g.kind id ≠ .documentation)
      (plain : (g.kind id).isReference = false) (hidden : detail.draws (g.kind id) = false)
      (rest : Drawing g detail ((g.children id).map (·, parent) ++ pending) visited next drawn) :
      Drawing g detail ((id, parent) :: pending) visited next drawn
  | draw {id parent : Nat} (other : g.kind id ≠ .documentation)
      (plain : (g.kind id).isReference = false) (shown : detail.draws (g.kind id) = true)
      (rest : Drawing g detail ((g.drawnContent detail id).map (·, next) ++ pending) visited
        (next + 1) drawn) :
      Drawing g detail ((id, parent) :: pending) visited next
        (.draw parent id ⟨g.kind id, g.drawnLabel id, false⟩ :: drawn)

theorem notice_of_defined {key : DefineKey} {first : Nat} {more : List Nat}
    (found : g.definesOf key = first :: more) : g.notice key = [] := by
  rw [notice, found]
  rfl

section Strokes

variable {id parent next : Nat} {rest : List (Nat × Nat)} {visited : List DefineKey}
  {key : DefineKey}

theorem ne_documentation_of_isReference (refers : (g.kind id).isReference = true) :
    g.kind id ≠ .documentation := by
  intro kind
  rw [kind] at refers
  cases refers

theorem strokes_pass (idle : g.kind id = .documentation ∨
      (g.kind id).isReference = true ∧ g.defineKey? id = none) :
    g.strokes detail ((id, parent) :: rest) visited next = g.strokes detail rest visited next := by
  rw [strokes]
  rcases idle with kind | ⟨refers, unnamed⟩
  · rw [if_pos kind]
  · rw [if_neg (ne_documentation_of_isReference refers), if_pos refers]
    simp only [unnamed]

theorem strokes_again (refers : (g.kind id).isReference = true)
    (named : g.defineKey? id = some key) (old : key ∈ visited) :
    g.strokes detail ((id, parent) :: rest) visited next =
      .draw parent id ⟨g.kind id, key.name, true⟩ :: g.strokes detail rest visited (next + 1) := by
  rw [strokes, if_neg (ne_documentation_of_isReference refers), if_pos refers]
  simp only [named, List.contains_iff_mem, old, ↓reduceDIte]

theorem strokes_expand (refers : (g.kind id).isReference = true)
    (named : g.defineKey? id = some key) (fresh : key ∉ visited) :
    g.strokes detail ((id, parent) :: rest) visited next = g.notice key ++
      g.strokes detail ((g.expansion key).map (·, parent) ++ rest) (key :: visited) next := by
  rw [strokes, if_neg (ne_documentation_of_isReference refers), if_pos refers]
  simp only [named, List.contains_iff_mem, fresh, ↓reduceDIte]
  split
  · rename_i undefined
    rw [notice, if_pos undefined, expansion, undefined]
    rfl
  · rename_i found
    rw [notice_of_defined found, List.nil_append]

theorem strokes_collapse (other : g.kind id ≠ .documentation)
    (plain : (g.kind id).isReference = false) (hidden : detail.draws (g.kind id) = false) :
    g.strokes detail ((id, parent) :: rest) visited next =
      g.strokes detail ((g.children id).map (·, parent) ++ rest) visited next := by
  rw [strokes, if_neg other, if_neg (by simp [plain]), if_pos (by simp [hidden])]

theorem strokes_draw (other : g.kind id ≠ .documentation)
    (plain : (g.kind id).isReference = false) (shown : detail.draws (g.kind id) = true) :
    g.strokes detail ((id, parent) :: rest) visited next =
      .draw parent id ⟨g.kind id, g.drawnLabel id, false⟩ ::
        g.strokes detail ((g.drawnContent detail id).map (·, next) ++ rest) visited (next + 1) := by
  rw [strokes, if_neg other, if_neg (by simp [plain]), if_neg (by simp [shown])]

end Strokes

theorem drawing_strokes (g : Grammar) (detail : Detail) (pending : List (Nat × Nat))
    (visited : List DefineKey) (next : Nat) :
    g.Drawing detail pending visited next (g.strokes detail pending visited next) := by
  induction pending, visited, next using strokes.induct g detail with
  | case1 visited next =>
    rw [strokes]
    exact .done
  | case2 visited next id parent rest _ _ _ kind ih =>
    rw [strokes_pass (.inl kind)]
    exact .pass (.inl kind) ih
  | case3 visited next id parent rest _ _ _ _ refers unnamed ih =>
    rw [strokes_pass (.inr ⟨refers, unnamed⟩)]
    exact .pass (.inr ⟨refers, unnamed⟩) ih
  | case4 visited next id parent rest _ _ _ _ refers key named old ih =>
    have old : key ∈ visited := by simpa using old
    rw [strokes_again refers named old]
    exact .again refers named old ih
  | case5 visited next id parent rest _ _ _ _ refers key named fresh _ undefined ih =>
    have fresh : key ∉ visited := by simpa using fresh
    rw [strokes_expand refers named fresh]
    refine .expand refers named fresh ?_
    rw [expansion, undefined]
    exact ih
  | case6 visited next id parent rest _ _ _ _ refers key named fresh _ _ _ _ _ _ _ ih =>
    have fresh : key ∉ visited := by simpa using fresh
    rw [strokes_expand refers named fresh]
    exact .expand refers named fresh ih
  | case7 visited next id parent rest _ _ _ other plain hidden ih =>
    have plain : (g.kind id).isReference = false := by simpa using plain
    have hidden : detail.draws (g.kind id) = false := by simpa using hidden
    rw [strokes_collapse other plain hidden]
    exact .collapse other plain hidden ih
  | case8 visited next id parent rest _ _ _ other plain shown ih =>
    have plain : (g.kind id).isReference = false := by simpa using plain
    have shown : detail.draws (g.kind id) = true := by simpa using shown
    rw [strokes_draw other plain shown]
    exact .draw other plain shown ih

/-- A pattern as it is drawn itself. -/
def drawnNode (g : Grammar) (id : Nat) : DrawnNode := ⟨g.kind id, g.drawnLabel id, false⟩

theorem filterMap_notice {α : Type} (f : Stroke → Option α)
    (unseen : ∀ name, f (.unresolved name) = none) (key : DefineKey) :
    (g.notice key).filterMap f = [] := by
  rw [notice]
  split
  · rw [List.filterMap_cons_none (unseen _), List.filterMap_nil]
  · rfl

theorem not_mem_notice {parent id : Nat} {node : DrawnNode} {key : DefineKey} :
    .draw parent id node ∉ g.notice key := by
  rw [notice]
  split <;> simp

namespace Drawing

variable {pending : List (Nat × Nat)} {visited : List DefineKey} {next : Nat} {drawn : List Stroke}

/-- The nodes that are no references are those of the patterns that are drawn themselves. -/
theorem filter_nodes (drawing : g.Drawing detail pending visited next drawn) :
    ((drawn.filterMap Stroke.drawn?).map Prod.snd).filter (fun node => !node.reference) =
      (drawn.filterMap Stroke.pattern?).map g.drawnNode := by
  induction drawing with
  | done => rfl
  | pass _ _ ih => exact ih
  | again _ _ _ _ ih => exact ih
  | expand _ _ _ _ ih =>
    rw [List.filterMap_append, List.filterMap_append, filterMap_notice _ fun _ => rfl,
      filterMap_notice _ fun _ => rfl]
    exact ih
  | collapse _ _ _ _ ih => exact ih
  | draw _ _ _ _ ih => exact congrArg (_ :: ·) ih

/-- Only kinds that are drawn are drawn themselves. -/
theorem draws_of_pattern (drawing : g.Drawing detail pending visited next drawn) {id : Nat}
    (member : id ∈ drawn.filterMap Stroke.pattern?) : detail.draws (g.kind id) = true := by
  induction drawing with
  | done => cases member
  | pass _ _ ih | again _ _ _ _ ih | collapse _ _ _ _ ih => exact ih member
  | expand _ _ _ _ ih =>
    rw [List.filterMap_append, filterMap_notice _ fun _ => rfl] at member
    exact ih member
  | draw _ _ shown _ ih =>
    rcases List.mem_cons.1 member with rfl | further
    · exact shown
    · exact ih further

/-- A node that is a reference has the name of the definition that it stands for. -/
theorem exists_key_of_reference (drawing : g.Drawing detail pending visited next drawn)
    {parent id : Nat} {node : DrawnNode} (member : .draw parent id node ∈ drawn)
    (dashed : node.reference = true) : (g.kind id).isReference = true ∧
      ∃ key, g.defineKey? id = some key ∧ node.label = key.name := by
  induction drawing with
  | done => cases member
  | pass _ _ ih | collapse _ _ _ _ ih => exact ih member
  | again refers named _ _ ih =>
    rcases List.mem_cons.1 member with same | further
    · cases same
      exact ⟨refers, _, named, rfl⟩
    · exact ih further
  | expand _ _ _ _ ih =>
    exact ih ((List.mem_append.1 member).resolve_left not_mem_notice)
  | draw _ _ _ _ ih =>
    rcases List.mem_cons.1 member with same | further
    · cases same
      cases dashed
    · exact ih further

end Drawing

end Grammar

end RelaxDoc
