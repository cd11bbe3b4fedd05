import RelaxDoc.Proofs.Xml.LegalTokens

/-! The strings of a document that is read from a text: if the texts of its entities are legal, so are all
strings in it. -/
namespace RelaxDoc.Xml

/-- A tag without illegal characters. -/
structure Tag.Legal (tag : Tag) : Prop where
  attributes : ∀ a ∈ tag.attributes, LegalText a.value
  declarations : ∀ d ∈ tag.declarations, LegalText d.uri

mutual

/-- A node without illegal characters in tags and texts. -/
def Node.Legal : Node → Prop
  | .element tag children => tag.Legal ∧ AllLegal children
  | .text content => LegalText content
  | .comment _ | .instruction _ _ => True

/-- Nodes without illegal characters in tags and texts. -/
def AllLegal : List Node → Prop
  | [] => True
  | node :: rest => node.Legal ∧ AllLegal rest

end

theorem allLegal_iff {nodes : List Node} : AllLegal nodes ↔ ∀ node ∈ nodes, node.Legal := by
  induction nodes with
  | nil => simp [AllLegal]
  | cons node rest ih => rw [AllLegal, ih, List.forall_mem_cons]

theorem Node.legal_element {tag : Tag} {children : List Node} (here : tag.Legal)
    (inside : ∀ node ∈ children, node.Legal) : (Node.element tag children).Legal := by
  rw [Node.Legal, allLegal_iff]
  exact ⟨here, inside⟩

/-- The texts of the entities have no illegal characters. -/
def LegalEntities (entities : List Entity) : Prop := ∀ entity ∈ entities, IsLegal entity.text

theorem LegalEntities.entityText? {entities : List Entity} (legal : LegalEntities entities)
    {name : String} {text : List Char} (found : entityText? entities name = some text) :
    IsLegal text := by
  obtain ⟨entity, here, rfl⟩ := Option.map_eq_some_iff.1 found
  exact legal entity (List.mem_of_find?_eq_some here)

theorem isLegal_spaced {c : Char} (legal : isLegal c = true) : isLegal (spaced c) = true := by
  unfold spaced
  split
  · decide
  · exact legal

section Values

variable {entities : List Entity}

theorem valueOf_legal (legal : LegalEntities entities) {nested : Bool}
    {inner : List Char → Nat → Except Fault (List Char × Nat)}
    (inside : ∀ text count found, IsLegal text → inner text count = .ok found → IsLegal found.1)
    {given : List Piece} (pieces : ∀ piece ∈ given, piece.Legal) {count : Nat}
    {found : List Char × Nat} (read : valueOf nested entities inner given count = .ok found) :
    IsLegal found.1 := by
  induction given generalizing count found with
  | nil =>
    cases read
    exact nofun
  | cons piece rest ih =>
    rw [List.forall_mem_cons] at pieces
    cases piece with
    | plain c =>
      rw [valueOf] at read
      obtain ⟨⟨more, count'⟩, there, eq⟩ := exists_of_bind read
      dsimp only at eq
      split at eq <;> cases eq
      · exact ih pieces.2 there
      · exact List.forall_mem_cons.2 ⟨isLegal_spaced pieces.1, ih pieces.2 there⟩
    | given c =>
      rw [valueOf] at read
      split at read
      · cases read
      · obtain ⟨⟨more, count'⟩, there, eq⟩ := exists_of_bind read
        cases eq
        refine List.forall_mem_cons.2 ⟨?_, ih pieces.2 there⟩
        split
        · exact isLegal_spaced pieces.1
        · exact pieces.1
    | entity name =>
      rw [valueOf] at read
      obtain ⟨counted, -, eq⟩ := exists_of_bind read
      split at eq
      · cases eq
      · rename_i text known
        obtain ⟨⟨value, count'⟩, here, eq⟩ := exists_of_bind eq
        obtain ⟨⟨more, count''⟩, there, eq⟩ := exists_of_bind eq
        cases eq
        exact List.forall_mem_append.2
          ⟨inside _ _ _ (legal.entityText? known) here, ih pieces.2 there⟩

theorem expandValue_legal (legal : LegalEntities entities) (depth : Nat) {text : List Char}
    (inText : IsLegal text) {count : Nat} {found : List Char × Nat}
    (read : expandValue entities depth text count = .ok found) : IsLegal found.1 := by
  induction depth generalizing text count found with
  | zero =>
    obtain ⟨given, split, eq⟩ := exists_of_bind read
    exact valueOf_legal legal (fun _ _ _ _ fault => by cases fault) (pieces_legal inText split) eq
  | succ depth ih =>
    obtain ⟨given, split, eq⟩ := exists_of_bind read
    exact valueOf_legal legal (fun _ _ _ inside => ih inside) (pieces_legal inText split) eq

theorem assign_legal (legal : LegalEntities entities) {depth : Nat}
    {attributes : List WrittenAttribute} (values : ∀ a ∈ attributes, IsLegal a.value) {count : Nat}
    {found : List Assignment × Nat} (read : assign entities depth attributes count = .ok found) :
    ∀ a ∈ found.1, LegalText a.value := by
  induction attributes generalizing count found with
  | nil =>
    cases read
    exact nofun
  | cons a rest ih =>
    rw [List.forall_mem_cons] at values
    obtain ⟨⟨value, count'⟩, here, eq⟩ := exists_of_bind read
    obtain ⟨⟨more, count''⟩, there, eq⟩ := exists_of_bind eq
    cases eq
    refine List.forall_mem_cons.2 ⟨?_, ih values.2 there⟩
    rw [LegalText, String.toList_ofList]
    exact expandValue_legal legal depth values.1 here

/-- A segment without illegal characters. -/
def Segment.Legal : Segment → Prop
  | .text content => IsLegal content
  | .entity _ => True

theorem appendText_legal {c : Char} {last : Bool} {before : List Char} (here : isLegal c = true)
    (legal : IsLegal before) : IsLegal (appendText c last before) := by
  intro d mem
  have mem' : d = c ∨ d = '\n' ∨ d ∈ before := by
    unfold appendText at mem
    split at mem <;> split at mem <;> grind
  rcases mem' with rfl | rfl | mem'
  · exact here
  · decide
  · exact legal d mem'

theorem flushed_legal {before : List Char} (legal : IsLegal before) :
    ∀ segment ∈ flushed before, segment.Legal := by
  unfold flushed
  split
  · exact nofun
  · rw [List.forall_mem_singleton]
    exact fun c mem => legal c (List.mem_reverse.1 mem)

theorem segments_legal {nested verbatim : Bool} {before : List Char} {given : List Piece}
    (legal : IsLegal before) (pieces : ∀ piece ∈ given, piece.Legal) :
    ∀ segment ∈ segments nested verbatim before given, segment.Legal := by
  induction given generalizing verbatim before with
  | nil =>
    rw [segments]
    exact flushed_legal legal
  | cons piece rest ih =>
    rw [List.forall_mem_cons] at pieces
    cases piece with
    | plain c =>
      rw [segments]
      split
      · exact ih (List.forall_mem_cons.2 ⟨pieces.1, legal⟩) pieces.2
      · exact ih (appendText_legal pieces.1 legal) pieces.2
    | given c =>
      rw [segments]
      split
      · exact ih (appendText_legal pieces.1 legal) pieces.2
      · exact ih (List.forall_mem_cons.2 ⟨pieces.1, legal⟩) pieces.2
    | entity name =>
      rw [segments, List.forall_mem_append, List.forall_mem_cons]
      exact ⟨flushed_legal legal, trivial, ih nofun pieces.2⟩

end Values

section Tags

/-- Declarations and attributes without illegal characters. -/
structure Pending.Legal (pending : Pending) : Prop where
  declarations : ∀ d ∈ pending.declarations, LegalText d.uri
  assignments : ∀ a ∈ pending.assignments, LegalText a.value

theorem uri_of_declares {a : Assignment} {d : Declaration} (declares : a.declares = .ok (.binding d)) :
    d.uri = a.value := by
  unfold Assignment.declares at declares
  split at declares
  · split at declares
    · cases declares
    · split at declares <;> cases declares
      rfl
  · split at declares
    · split at declares <;> cases declares
      rfl
    · cases declares

theorem splitAssignments_legal {assignments : List Assignment} {declared : List Declaration}
    (legal : ∀ a ∈ assignments, LegalText a.value) (before : ∀ d ∈ declared, LegalText d.uri)
    {found : List Declaration × List Assignment}
    (read : splitAssignments assignments declared = .ok found) :
    (∀ d ∈ found.1, LegalText d.uri) ∧ ∀ a ∈ found.2, LegalText a.value := by
  induction assignments generalizing declared found with
  | nil =>
    cases read
    exact ⟨before, nofun⟩
  | cons a rest ih =>
    rw [List.forall_mem_cons] at legal
    rw [splitAssignments] at read
    obtain ⟨kind, known, eq⟩ := exists_of_bind read
    cases kind with
    | known => exact ih legal.2 before eq
    | nothing =>
      obtain ⟨⟨declared', others⟩, there, eq⟩ := exists_of_bind eq
      cases eq
      have behind := ih legal.2 before there
      exact ⟨behind.1, List.forall_mem_cons.2 ⟨legal.1, behind.2⟩⟩
    | binding d =>
      dsimp only at eq
      split at eq
      · cases eq
      · refine ih legal.2 ?_ eq
        rw [List.forall_mem_append, List.forall_mem_singleton, uri_of_declares known]
        exact ⟨before, legal.1⟩

theorem expandAssignments_legal {scope : Scope} {assignments : List Assignment}
    {done found : List Attribute} (legal : ∀ a ∈ assignments, LegalText a.value)
    (before : ∀ a ∈ done, LegalText a.value)
    (read : expandAssignments scope assignments done = .ok found) :
    ∀ a ∈ found, LegalText a.value := by
  induction assignments generalizing done with
  | nil =>
    cases read
    exact before
  | cons a rest ih =>
    rw [List.forall_mem_cons] at legal
    rw [expandAssignments] at read
    obtain ⟨name, -, eq⟩ := exists_of_bind read
    split at eq
    · cases eq
    · refine ih legal.2 ?_ eq
      rw [List.forall_mem_append, List.forall_mem_singleton]
      exact ⟨before, legal.1⟩

theorem Pending.Legal.add {pending : Pending} (legal : pending.Legal) {assignments : List Assignment}
    (values : ∀ a ∈ assignments, LegalText a.value) {found : Pending}
    (read : pending.add assignments = .ok found) : found.Legal := by
  obtain ⟨⟨declarations, others⟩, split, eq⟩ := exists_of_bind read
  cases eq
  have parts := splitAssignments_legal values legal.declarations split
  exact ⟨parts.1, List.forall_mem_append.2 ⟨legal.assignments, parts.2⟩⟩

theorem Pending.Legal.tag {pending : Pending} (legal : pending.Legal) {outer : Scope}
    {name : WrittenName} {found : Tag} (read : pending.tag outer name = .ok found) : found.Legal := by
  obtain ⟨tagName, -, eq⟩ := exists_of_bind read
  obtain ⟨attributes, expanded, eq⟩ := exists_of_bind eq
  cases eq
  exact ⟨expandAssignments_legal legal.assignments (by simp) expanded, legal.declarations⟩

end Tags

section Invariants

/-- A loop keeps what each step keeps. -/
theorem foldlM_keeps {α β : Type} {P : α → Prop} {step : α → β → Except Fault α} {items : List β}
    (keeps : ∀ item ∈ items, ∀ a a', P a → step a item = .ok a' → P a') {a a' : α} (start : P a)
    (run : items.foldlM step a = .ok a') : P a' := by
  induction items generalizing a with
  | nil =>
    cases run
    exact start
  | cons item rest ih =>
    rw [List.forall_mem_cons] at keeps
    rw [List.foldlM_cons] at run
    obtain ⟨b, here, run⟩ := exists_of_bind run
    exact ih keeps.2 (keeps.1 a b start here) run

/-- What every step of reading keeps: adding text, comments and instructions, starting and ending an
element, and reading what stands for an entity. -/
structure Progress.Invariant (entities : List Entity) (P : Progress → Prop) : Prop where
  aside : ∀ p started references, P p → P { p with started := started, references := references }
  text : ∀ p content, IsLegal content → P p → P (p.add (.text (String.ofList content)))
  comment : ∀ p content, P p → P (p.add (.comment content))
  instruction : ∀ p target content, P p → P (p.add (.instruction target content))
  begin : ∀ p name assignments ending p', name.Proper →
    (LegalEntities entities → ∀ a ∈ assignments, LegalText a.value) → P p →
      p.begin name assignments ending = .ok p' → P p'
  finish : ∀ p name p', P p → p.finish name = .ok p' → P p'

/-- Reading tokens keeps a property. -/
def Keeps (P : Progress → Prop) (read : List Token → Progress → Except Fault Progress) : Prop :=
  ∀ tokens p p', (∀ token ∈ tokens, token.Sound) → P p → read tokens p = .ok p' → P p'

namespace Progress.Invariant

variable {entities : List Entity} {P : Progress → Prop} (invariant : Invariant entities P)
  {inner : List Token → Progress → Except Fault Progress}

include invariant

theorem readSegment (inside : Keeps P inner) {nested : Bool} {p p' : Progress} {segment : Segment}
    (legal : segment.Legal) (kept : P p)
    (read : readSegment entities nested inner p segment = .ok p') : P p' := by
  cases segment with
  | text content =>
    cases read
    exact invariant.text p content legal kept
  | entity name =>
    obtain ⟨count, -, read⟩ := exists_of_bind read
    split at read
    · cases read
    · obtain ⟨tokens, scanned, read⟩ := exists_of_bind read
      obtain ⟨after, there, read⟩ := exists_of_bind read
      cases read
      -- The replacement text is scanned here, whatever it is.
      have sound := Scanner.content_sound 0 _ scanned
      exact invariant.aside after _ _
        (inside _ _ _ sound (invariant.aside p false count kept) there)

theorem readToken (inside : Keeps P inner) {depth : Nat} {p p' : Progress} {token : Token}
    (sound : token.Sound) (kept : P p) (read : readToken entities depth inner p token = .ok p') :
    P p' := by
  cases token with
  | comment content =>
    cases read
    exact invariant.comment p content kept
  | instruction target content =>
    cases read
    exact invariant.instruction p target content kept
  | verbatim raw =>
    have pieces : ∀ piece ∈ raw.map Piece.plain, piece.Legal := by
      rw [List.forall_mem_map]
      exact sound.legal
    exact foldlM_keeps (fun segment mem _ _ kept => invariant.readSegment inside
      (segments_legal (by exact nofun) pieces segment mem) kept) kept read
  | characters raw =>
    obtain ⟨given, split, read⟩ := exists_of_bind read
    exact foldlM_keeps (fun segment mem _ _ kept => invariant.readSegment inside
      (segments_legal (by exact nofun) (pieces_legal sound.legal split) segment mem) kept) kept read
  | endTag name => exact invariant.finish p name p' kept read
  | startTag name attributes ending =>
    obtain ⟨⟨assignments, count⟩, assigned, read⟩ := exists_of_bind read
    exact invariant.begin _ _ _ _ _ sound.named
      (fun legal => assign_legal legal sound.legal assigned)
      (invariant.aside p p.started count kept) read

theorem readTokens (depth : Nat) : Keeps P (readTokens entities depth) := by
  -- What stands for an entity is read one level deeper.
  induction depth with
  | zero =>
    intro tokens p p' sound kept read
    have fault : Keeps P fun _ _ => .error .entitiesTooDeep := fun _ _ _ _ _ read => by cases read
    exact foldlM_keeps (fun token mem _ _ kept =>
      invariant.readToken fault (sound token mem) kept) kept read
  | succ depth ih =>
    intro tokens p p' sound kept read
    exact foldlM_keeps (fun token mem _ _ kept =>
      invariant.readToken ih (sound token mem) kept) kept read

end Progress.Invariant

theorem Document.toNode_mem_of_ofNodes? {nodes : List Node} {document : Document}
    (found : ofNodes? nodes = some document) : document.toNode ∈ nodes := by
  obtain ⟨node, mem, eq⟩ := List.exists_of_findSome?_eq_some found
  cases node with
  | element tag children =>
    cases eq
    exact mem
  | text | comment | instruction => cases eq

/-- What every step of reading keeps holds when the root element is finished. -/
theorem Document.exists_progress_of_ofText {P : Progress → Prop} {text : String} {outline : Outline}
    {document : Document} (outlined : Outline.ofText text = .ok outline)
    (invariant : Progress.Invariant outline.entities P) (start : P .start)
    (read : ofText text = .ok document) : ∃ p, P p ∧ document.toNode ∈ p.finished := by
  obtain ⟨outline', again, read⟩ := exists_of_bind read
  cases outlined.symm.trans again
  obtain ⟨p, done, read⟩ := exists_of_bind read
  have sound := Outline.sound_of_ofText outlined
  refine ⟨p, invariant.readTokens _ _ _ _ sound start done, ?_⟩
  dsimp only at read
  split at read
  · cases read
  · split at read
    · rename_i found
      cases read
      exact List.mem_reverse.1 (toNode_mem_of_ofNodes? found)
    · cases read

end Invariants

section Reading

variable {entities : List Entity}

/-- What is read so far has no illegal characters. -/
structure Progress.Legal (p : Progress) : Prop where
  opened : ∀ element ∈ p.open?, element.tag.Legal ∧ ∀ node ∈ element.content, node.Legal
  finished : ∀ node ∈ p.finished, node.Legal
  pending : p.pending.Legal

theorem Pending.legal_none : Pending.none.Legal := ⟨by simp [none], by simp [none]⟩

theorem Progress.Legal.add {p : Progress} (legal : p.Legal) {node : Node} (here : node.Legal) :
    (p.add node).Legal := by
  obtain ⟨opened, finished, pending⟩ := legal
  unfold Progress.add
  split
  · exact ⟨opened, List.forall_mem_cons.2 ⟨here, finished⟩, pending⟩
  · rename_i innermost outer eq
    rw [eq, List.forall_mem_cons] at opened
    refine ⟨List.forall_mem_cons.2 ⟨⟨opened.1.1, ?_⟩, opened.2⟩, finished, pending⟩
    exact List.forall_mem_cons.2 ⟨here, opened.1.2⟩

theorem Progress.Legal.finish {p p' : Progress} (legal : p.Legal) {name : WrittenName}
    (read : p.finish name = .ok p') : p'.Legal := by
  obtain ⟨opened, finished, pending⟩ := legal
  unfold Progress.finish at read
  split at read
  · cases read
  · rename_i innermost outer eq
    rw [eq, List.forall_mem_cons] at opened
    have outside : ({ p with open? := outer, pending := .none } : Progress).Legal :=
      ⟨opened.2, finished, Pending.legal_none⟩
    dsimp only at read
    split at read
    · cases read
    · obtain ⟨_, -, read⟩ := exists_of_bind read
      split at read
      · cases read
      · cases read
        exact outside.add (Node.legal_element opened.1.1 fun node mem =>
          opened.1.2 node (List.mem_reverse.1 mem))

theorem Progress.Legal.begin {p p' : Progress} (legal : p.Legal) {name : WrittenName}
    {assignments : List Assignment} (values : ∀ a ∈ assignments, LegalText a.value) {ending : TagEnd}
    (read : p.begin name assignments ending = .ok p') : p'.Legal := by
  obtain ⟨opened, finished, pending⟩ := legal
  obtain ⟨_, -, read⟩ := exists_of_bind read
  obtain ⟨pending', added, read⟩ := exists_of_bind read
  have pending'_legal := pending.add values added
  split at read
  · cases read
    exact ⟨opened, finished, pending'_legal⟩
  · obtain ⟨tag, expanded, read⟩ := exists_of_bind read
    have tag_legal := pending'_legal.tag expanded
    have begun : ({ p with started := true, pending := .none } : Progress).Legal :=
      ⟨opened, finished, Pending.legal_none⟩
    dsimp only at read
    split at read
    · cases read
      exact begun.add (Node.legal_element tag_legal (by simp))
    · cases read
      exact ⟨List.forall_mem_cons.2 ⟨⟨tag_legal, by simp⟩, opened⟩, finished, Pending.legal_none⟩

theorem Progress.Legal.invariant (legal : LegalEntities entities) :
    Progress.Invariant entities Progress.Legal where
  aside _ _ _ kept := ⟨kept.opened, kept.finished, kept.pending⟩
  text _ _ here kept := kept.add (by rwa [Node.Legal, LegalText, String.toList_ofList])
  comment _ _ kept := kept.add trivial
  instruction _ _ _ kept := kept.add trivial
  begin _ _ _ _ _ _ values kept read := kept.begin (values legal) read
  finish _ _ _ kept read := kept.finish read

end Reading

/-- All strings of a document are legal if the texts of its entities are. -/
theorem Document.legal_of_ofText {text : String} {outline : Outline} {document : Document}
    (outlined : Outline.ofText text = .ok outline) (legal : LegalEntities outline.entities)
    (read : ofText text = .ok document) : document.toNode.Legal := by
  have start : Progress.start.Legal :=
    ⟨by simp [Progress.start], by simp [Progress.start], Pending.legal_none⟩
  obtain ⟨p, kept, member⟩ :=
    exists_progress_of_ofText outlined (Progress.Legal.invariant legal) start read
  exact kept.finished _ member

end RelaxDoc.Xml
