import RelaxDoc.Proofs.Diagram.Simple
import RelaxDoc.Proofs.Record.Repetition

/-! Which patterns a diagram draws more than once. References are expanded once for each key, but a
definition that stands inside of a drawn pattern is gone through where it stands as well, and one
that the element stands in may lead back to the element. -/
namespace RelaxDoc.Grammar

variable {g : Grammar} {detail : Detail} {start id : Nat}

/-- A pattern is drawn itself where a drawing comes to it. -/
def IsShown (g : Grammar) (detail : Detail) (id : Nat) : Prop :=
  g.kind id ≠ .documentation ∧ (g.kind id).isReference = false ∧ detail.draws (g.kind id) = true

instance (g : Grammar) (detail : Detail) : DecidablePred (g.IsShown detail) :=
  fun id => inferInstanceAs (Decidable (g.kind id ≠ .documentation ∧
    (g.kind id).isReference = false ∧ detail.draws (g.kind id) = true))

/-- The nodes inside of a node that a drawing goes on to. References are followed instead. -/
def onward (g : Grammar) (detail : Detail) (id : Nat) : List Nat :=
  if g.kind id = .documentation ∨ (g.kind id).isReference = true then []
  else if detail.draws (g.kind id) then g.drawnContent detail id else g.children id

theorem onward_sublist (g : Grammar) (detail : Detail) (id : Nat) :
    (g.onward detail id).Sublist (g.children id) := by
  unfold onward
  split
  · exact List.nil_sublist _
  · split
    · exact g.drawnContent_sublist detail id
    · exact List.Sublist.refl _

/-- A drawing that starts from `tops` comes to a node, with no key of `barred` expanded on the way. -/
inductive Meets (g : Grammar) (detail : Detail) (barred : List DefineKey) (tops : List Nat) :
    Nat → Prop where
  | top {id : Nat} (member : id ∈ tops) : Meets g detail barred tops id
  | onward {outer id : Nat} (met : Meets g detail barred tops outer)
      (member : id ∈ g.onward detail outer) : Meets g detail barred tops id
  | expansion {reference id : Nat} {key : DefineKey} (met : Meets g detail barred tops reference)
      (refers : (g.kind reference).isReference = true) (named : g.defineKey? reference = some key)
      (fresh : key ∉ barred) (member : id ∈ g.expansion key) : Meets g detail barred tops id

/-- A source gives a node to a drawing: the node is at the top of the source, or inside of nodes there
that the drawing goes on through. No reference is followed on the way. -/
inductive Gives (g : Grammar) (detail : Detail) (start : Nat) (source : Source) : Nat → Prop where
  | top {id : Nat} (member : id ∈ g.tops start source) : Gives g detail start source id
  | onward {outer id : Nat} (given : Gives g detail start source outer)
      (member : id ∈ g.onward detail outer) : Gives g detail start source id

/-- The sources of a drawing: the content of its element, and the definitions of the references that it
comes to, but for those under the key of the definition around the element. -/
def DrawsFrom (g : Grammar) (detail : Detail) (start : Nat) : Source → Prop
  | .start => True
  | .definition define => g.kind define = .define ∧ ∃ reference key,
      g.Meets detail (g.ownKeys start) (g.contentChildren start) reference ∧
      (g.kind reference).isReference = true ∧ g.defineKey? reference = some key ∧
      key ∉ g.ownKeys start ∧ g.defineKey? define = some key

/-- A drawing from pending nodes with `visited` expanded makes the strokes. It takes the nodes of the
trail and expands `keys`. -/
structure Tour (g : Grammar) (detail : Detail) (pending : List Nat) (visited : List DefineKey)
    (drawn : List Stroke) (trail : List Nat) (keys : List DefineKey) : Prop where
  shows : drawn.filterMap Stroke.pattern? = trail.filter fun id => g.IsShown detail id
  /-- The trail is what was pending, with what is inside of its nodes and of the definitions. -/
  count : ∀ item, trail.count item = pending.count item +
    (trail.flatMap (g.onward detail)).count item + (keys.flatMap g.expansion).count item
  distinct : keys.Nodup
  fresh : ∀ key ∈ keys, key ∉ visited
  /-- A key is expanded at a reference on the trail. -/
  expanded : ∀ key ∈ keys, ∃ id ∈ trail, (g.kind id).isReference = true ∧
    g.defineKey? id = some key
  expands : ∀ id ∈ trail, (g.kind id).isReference = true → ∀ key, g.defineKey? id = some key →
    key ∈ keys ∨ key ∈ visited
  met : ∀ barred tops, (∀ key ∈ barred, key ∈ visited) →
    (∀ id ∈ pending, g.Meets detail barred tops id) → ∀ id ∈ trail, g.Meets detail barred tops id

namespace Tour

variable {pending trail : List Nat} {visited keys : List DefineKey} {drawn more : List Stroke}

/-- A node is taken whose references are expanded already, and what is inside of it is pending. -/
theorem enter (tour : g.Tour detail (g.onward detail id ++ pending) visited drawn trail keys)
    (idle : (g.kind id).isReference = true → ∀ key, g.defineKey? id = some key → key ∈ visited)
    (adds : more.filterMap Stroke.pattern? =
      [id].filter (fun id => g.IsShown detail id) ++ drawn.filterMap Stroke.pattern?) :
    g.Tour detail (id :: pending) visited more (id :: trail) keys where
  shows := by
    rw [adds, tour.shows, ← List.filter_append]
    rfl
  count item := by
    have counted := tour.count item
    rw [List.count_append] at counted
    rw [List.flatMap_cons, List.count_append, List.count_cons, List.count_cons]
    omega
  distinct := tour.distinct
  fresh := tour.fresh
  expanded key member := by
    obtain ⟨reference, further, refers⟩ := tour.expanded key member
    exact ⟨reference, List.mem_cons_of_mem _ further, refers⟩
  expands reference member refers key named := by
    rcases List.mem_cons.1 member with rfl | further
    · exact .inr (idle refers key named)
    · exact tour.expands reference further refers key named
  met barred tops barring start := by
    have head := start id List.mem_cons_self
    refine List.forall_mem_cons.2 ⟨head, tour.met barred tops barring fun inner member => ?_⟩
    rcases List.mem_append.1 member with inside | later
    · exact .onward head inside
    · exact start inner (List.mem_cons_of_mem _ later)

/-- A reference is taken that is the first by its key. -/
theorem expand {key : DefineKey} (refers : (g.kind id).isReference = true)
    (named : g.defineKey? id = some key) (new : key ∉ visited)
    (tour : g.Tour detail (g.expansion key ++ pending) (key :: visited) drawn trail keys)
    (adds : more.filterMap Stroke.pattern? = drawn.filterMap Stroke.pattern?) :
    g.Tour detail (id :: pending) visited more (id :: trail) (key :: keys) where
  shows := by
    have hidden : ¬ g.IsShown detail id := fun shown => by simp [IsShown, refers] at shown
    rw [adds, tour.shows, List.filter_cons_of_neg (by simpa using hidden)]
  count item := by
    have counted := tour.count item
    have closed : g.onward detail id = [] := if_pos (.inr refers)
    rw [List.count_append] at counted
    rw [List.flatMap_cons, List.flatMap_cons, closed, List.nil_append, List.count_append,
      List.count_cons, List.count_cons]
    omega
  distinct := List.nodup_cons.2
    ⟨fun member => tour.fresh key member List.mem_cons_self, tour.distinct⟩
  fresh other member := by
    rcases List.mem_cons.1 member with rfl | further
    · exact new
    · exact fun old => tour.fresh other further (List.mem_cons_of_mem _ old)
  expanded other member := by
    rcases List.mem_cons.1 member with rfl | further
    · exact ⟨id, List.mem_cons_self, refers, named⟩
    · obtain ⟨reference, later, also⟩ := tour.expanded other further
      exact ⟨reference, List.mem_cons_of_mem _ later, also⟩
  expands reference member also other same := by
    rcases List.mem_cons.1 member with rfl | further
    · rw [named] at same
      cases same
      exact .inl List.mem_cons_self
    · rcases tour.expands reference further also other same with expanded | old
      · exact .inl (List.mem_cons_of_mem _ expanded)
      · rcases List.mem_cons.1 old with rfl | older
        · exact .inl List.mem_cons_self
        · exact .inr older
  met barred tops barring start := by
    have head := start id List.mem_cons_self
    have past : key ∉ barred := fun member => new (barring key member)
    refine List.forall_mem_cons.2 ⟨head, tour.met barred tops
      (fun other member => List.mem_cons_of_mem _ (barring other member)) fun inner member => ?_⟩
    rcases List.mem_append.1 member with inside | later
    · exact .expansion head refers named past inside
    · exact start inner (List.mem_cons_of_mem _ later)

end Tour

/-- A node that is not shown and that a drawing does not go through is passed. -/
theorem Tour.pass {pending trail : List Nat} {visited keys : List DefineKey}
    {drawn more : List Stroke} (tour : g.Tour detail pending visited drawn trail keys)
    (closed : g.kind id = .documentation ∨ (g.kind id).isReference = true)
    (idle : (g.kind id).isReference = true → ∀ key, g.defineKey? id = some key → key ∈ visited)
    (adds : more.filterMap Stroke.pattern? = drawn.filterMap Stroke.pattern?) :
    g.Tour detail (id :: pending) visited more (id :: trail) keys := by
  have hidden : ¬ g.IsShown detail id := by
    rintro ⟨other, plain, _⟩
    rcases closed with kind | refers
    · exact other kind
    · rw [plain] at refers
      cases refers
  have inside : g.onward detail id = [] := if_pos closed
  refine .enter (by rwa [inside]) idle ?_
  rw [adds, List.filter_cons_of_neg (by simpa using hidden)]
  rfl

/-- Every drawing is a tour. -/
theorem Drawing.exists_tour {pending : List (Nat × Nat)} {visited : List DefineKey} {next : Nat}
    {drawn : List Stroke} (drawing : g.Drawing detail pending visited next drawn) :
    ∃ trail keys, g.Tour detail (pending.map Prod.fst) visited drawn trail keys := by
  induction drawing with
  | done => exact ⟨[], [], rfl, fun _ => rfl, .nil, nofun, nofun, nofun, fun _ _ _ _ => nofun⟩
  | @pass _ _ _ _ id _ idle _ ih =>
    obtain ⟨trail, keys, tour⟩ := ih
    refine ⟨id :: trail, keys, tour.pass (idle.imp_right And.left) (fun refers key named => ?_) rfl⟩
    rcases idle with kind | ⟨_, unnamed⟩
    · exact absurd kind (ne_documentation_of_isReference refers)
    · rw [unnamed] at named
      cases named
  | @again _ _ _ _ _ id _ refers named old _ ih =>
    obtain ⟨trail, keys, tour⟩ := ih
    refine ⟨id :: trail, keys, tour.pass (.inr refers) (fun _ key also => ?_) rfl⟩
    rw [named] at also
    cases also
    exact old
  | @expand key _ _ _ _ id _ refers named fresh _ ih =>
    obtain ⟨trail, keys, tour⟩ := ih
    rw [List.map_append, fst_attach] at tour
    refine ⟨id :: trail, key :: keys, .expand refers named fresh tour ?_⟩
    rw [List.filterMap_append, filterMap_notice _ fun _ => rfl, List.nil_append]
  | @collapse _ _ _ _ id _ other plain hidden _ ih =>
    obtain ⟨trail, keys, tour⟩ := ih
    have inside : g.onward detail id = g.children id := by simp [onward, other, plain, hidden]
    rw [List.map_append, fst_attach, ← inside] at tour
    refine ⟨id :: trail, keys, tour.enter (fun refers => ?_) ?_⟩
    · rw [plain] at refers
      cases refers
    · simp [IsShown, hidden]
  | @draw _ _ _ _ id _ other plain shown _ ih =>
    obtain ⟨trail, keys, tour⟩ := ih
    have inside : g.onward detail id = g.drawnContent detail id := by
      simp [onward, other, plain, shown]
    rw [List.map_append, fst_attach, ← inside] at tour
    refine ⟨id :: trail, keys, tour.enter (fun refers => ?_) ?_⟩
    · rw [plain] at refers
      cases refers
    · simp [IsShown, other, plain, shown, Stroke.pattern?]

theorem heldAlong_gives (g : Grammar) (detail : Detail) (start : Nat) :
    g.HeldAlong (g.onward detail) start (g.Gives detail start) where
  within := g.onward_sublist detail
  held_iff source id := by
    constructor
    · intro given
      cases given with
      | top member => exact .inl member
      | onward given member => exact .inr ⟨_, member, given⟩
    · rintro (member | ⟨outer, member, given⟩)
      · exact .top member
      · exact .onward given member

theorem Gives.owner_mem_ancestors (loaded : g.Loaded) {source : Source}
    (given : g.Gives detail start source id) : source.owner start ∈ g.ancestors id :=
  (g.heldAlong_gives detail start).owner_mem_ancestors loaded given

namespace Tour

variable {trail : List Nat} {keys : List DefineKey} {drawn : List Stroke}
  (tour : g.Tour detail (g.contentChildren start) (g.ownKeys start) drawn trail keys)

include tour

/-- The drawing of an element takes the nodes that it comes to. -/
theorem mem_trail_iff :
    id ∈ trail ↔ g.Meets detail (g.ownKeys start) (g.contentChildren start) id := by
  have listed (id : Nat) (positive : 0 < (g.contentChildren start).count id ∨
      0 < (trail.flatMap (g.onward detail)).count id ∨ 0 < (keys.flatMap g.expansion).count id) :
      id ∈ trail := by
    have counted := tour.count id
    exact List.count_pos_iff.1 (by omega)
  constructor
  · exact tour.met _ _ (fun _ old => old) (fun _ member => .top member) id
  · intro met
    induction met with
    | top member => exact listed _ (.inl (List.count_pos_iff.2 member))
    | onward _ member ih =>
      exact listed _ (.inr (.inl (List.count_pos_iff.2 (List.mem_flatMap.2 ⟨_, ih, member⟩))))
    | expansion _ refers named fresh member ih =>
      have expanded := (tour.expands _ ih refers _ named).resolve_right fresh
      exact listed _ (.inr (.inr (List.count_pos_iff.2 (List.mem_flatMap.2 ⟨_, expanded, member⟩))))

theorem mem_sourcesOf_iff (source : Source) :
    source ∈ g.sourcesOf keys ↔ g.DrawsFrom detail start source := by
  cases source with
  | start => exact iff_of_true (start_mem_sourcesOf keys) trivial
  | definition define =>
    rw [definition_mem_sourcesOf]
    constructor
    · rintro ⟨key, member, kind, same⟩
      obtain ⟨reference, taken, refers, named⟩ := tour.expanded key member
      exact ⟨kind, reference, key, tour.mem_trail_iff.1 taken, refers, named,
        tour.fresh key member, same⟩
    · rintro ⟨kind, reference, key, met, refers, named, fresh, same⟩
      have expanded := tour.expands reference (tour.mem_trail_iff.2 met) refers key named
      exact ⟨key, expanded.resolve_right fresh, kind, same⟩

/-- A pattern is drawn itself once for each of the sources that give it. -/
theorem count_drawn (id : Nat) : (drawn.filterMap Stroke.pattern?).count id =
    if g.IsShown detail id then trail.count id else 0 := by
  rw [tour.shows]
  split
  · rename_i shown
    exact List.count_filter (by simpa using shown)
  · rename_i hidden
    exact List.count_eq_zero_of_not_mem (by simp [hidden])

end Tour

/-- At most one source of a diagram gives a node. -/
def GivenOnce (g : Grammar) (detail : Detail) (start id : Nat) : Prop :=
  ∀ one other, g.DrawsFrom detail start one → g.DrawsFrom detail start other →
    g.Gives detail start one id → g.Gives detail start other id → one = other

/-- No source of a diagram gives a node. -/
def GivenNever (g : Grammar) (detail : Detail) (start id : Nat) : Prop :=
  ∀ source, g.DrawsFrom detail start source → ¬ g.Gives detail start source id

open Classical in
/-- A diagram draws a pattern itself once for each of its sources that give the pattern. -/
theorem exists_sources (loaded : g.Loaded) (detail : Detail) (start : Nat) :
    ∃ sources : List Source, sources.Nodup ∧
      (∀ source, source ∈ sources ↔ g.DrawsFrom detail start source) ∧
      ∀ id, (g.drawnPatterns detail start).count id = if g.IsShown detail id then
        sources.countP fun source => g.Gives detail start source id else 0 := by
  obtain ⟨trail, keys, tour⟩ := (g.drawing_elementStrokes detail start).exists_tour
  rw [fst_attach] at tour
  refine ⟨g.sourcesOf keys, g.sourcesOf_nodup tour.distinct, tour.mem_sourcesOf_iff, fun id => ?_⟩
  rw [drawnPatterns, tour.count_drawn,
    (g.heldAlong_gives detail start).count_eq_countP loaded tour.count]

theorem nodup_drawnPatterns_iff (loaded : g.Loaded) : (g.drawnPatterns detail start).Nodup ↔
    ∀ id, g.IsShown detail id → g.GivenOnce detail start id := by
  classical
  obtain ⟨sources, distinct, known, count⟩ := exists_sources loaded detail start
  rw [nodup_iff_of_count count]
  exact forall_congr' fun id => imp_congr_right fun _ => countP_le_one_iff distinct known

theorem not_mem_drawnPatterns_iff (loaded : g.Loaded) (shown : g.IsShown detail id) :
    id ∉ g.drawnPatterns detail start ↔ g.GivenNever detail start id := by
  classical
  obtain ⟨sources, _, known, count⟩ := exists_sources loaded detail start
  rw [← List.count_eq_zero, count, if_pos shown, List.countP_eq_zero]
  simp only [known, decide_eq_true_eq]
  rfl

/-- Where definitions stand apart, one around an element is the nearest, so its key counts as drawn. -/
theorem DefinitionsApart.mem_ownKeys (apart : g.DefinitionsApart) {define : Nat} {key : DefineKey}
    (kind : g.kind define = .define) (around : define ∈ g.ancestors start)
    (named : g.defineKey? define = some key) : key ∈ g.ownKeys start := by
  have nearest : g.enclosing? start .define = some define := by
    cases found : g.enclosing? start .define with
    | none => exact absurd kind (by simpa using List.find?_eq_none.1 found define around)
    | some nearest =>
      have nearest_kind := Arena.kind_of_enclosing? found
      rcases ancestors_total around (List.mem_of_find?_eq_some found) with rfl | above | above
      · rfl
      · exact absurd kind (apart nearest nearest_kind define above).2.2
      · exact absurd nearest_kind (apart define kind nearest above).2.2
  rw [ownKeys, nearest, Option.bind_some, named]
  exact List.mem_singleton.2 rfl

/-- Different sources have different owners. -/
theorem DrawsFrom.eq_of_owner (element : g.kind start = .element) {one other : Source}
    (known : g.DrawsFrom detail start one) (further : g.DrawsFrom detail start other)
    (same : one.owner start = other.owner start) : one = other := by
  have apart {source : Source} (known : g.DrawsFrom detail start source) :
      source ≠ .definition start := by
    rintro rfl
    rw [known.1] at element
    cases element
  exact Source.eq_of_owner (apart known) (apart further) same

/-- Where definitions stand apart, no source of a diagram stands inside of another. -/
theorem DefinitionsApart.owner_not_mem_ancestors (apart : g.DefinitionsApart)
    (element : g.kind start = .element) {one other : Source}
    (known : g.DrawsFrom detail start one) (further : g.DrawsFrom detail start other) :
    one.owner start ∉ g.ancestors (other.owner start) := by
  intro around
  cases other with
  | start =>
    cases one with
    | start => exact Nat.lt_irrefl _ (lt_of_mem_ancestors around)
    | definition define =>
      obtain ⟨kind, _, key, _, _, _, fresh, named⟩ := known
      exact fresh (apart.mem_ownKeys kind around named)
  | definition define =>
    obtain ⟨noElement, _, noDefine⟩ := apart define further.1 _ around
    cases one with
    | start => exact noElement element
    | definition outer => exact noDefine known.1

theorem DefinitionsApart.givenOnce (apart : g.DefinitionsApart) (loaded : g.Loaded)
    (element : g.kind start = .element) (id : Nat) : g.GivenOnce detail start id := by
  intro one other known further first second
  rcases ancestors_total (first.owner_mem_ancestors loaded) (second.owner_mem_ancestors loaded) with
    same | around | around
  · exact known.eq_of_owner element further same
  · exact absurd around (apart.owner_not_mem_ancestors element known further)
  · exact absurd around (apart.owner_not_mem_ancestors element further known)

theorem DefinitionsApart.givenNever (apart : g.DefinitionsApart) (loaded : g.Loaded)
    (element : g.kind start = .element) : g.GivenNever detail start start := by
  intro source known given
  have start_known : g.DrawsFrom detail start .start := trivial
  exact apart.owner_not_mem_ancestors element known start_known (given.owner_mem_ancestors loaded)

theorem isShown_of_element (element : g.kind id = .element) : g.IsShown detail id := by
  rw [IsShown, element]
  cases detail <;> decide

/-- The diagram of an element draws every pattern once, and the element as its root alone, exactly if
each pattern is given by one source at most and the element by none. That holds where definitions
stand apart. -/
theorem nodup_drawn_iff (loaded : g.Loaded) (element : g.kind id = .element) (detail : Detail) :
    (g.diagram detail id).solidNodes = (g.drawnPatterns detail id).map g.drawnNode ∧
    ((id :: g.drawnPatterns detail id).Nodup ↔ g.GivenNever detail id id ∧
      ∀ inner, g.IsShown detail inner → g.GivenOnce detail id inner) ∧
    (g.DefinitionsApart → (id :: g.drawnPatterns detail id).Nodup) := by
  have exact_condition : (id :: g.drawnPatterns detail id).Nodup ↔ g.GivenNever detail id id ∧
      ∀ inner, g.IsShown detail inner → g.GivenOnce detail id inner := by
    rw [List.nodup_cons, nodup_drawnPatterns_iff loaded,
      not_mem_drawnPatterns_iff loaded (isShown_of_element element)]
  refine ⟨g.solidNodes_diagram detail id, exact_condition, fun apart => exact_condition.2 ?_⟩
  exact ⟨apart.givenNever loaded element, fun inner _ => apart.givenOnce loaded element inner⟩

theorem recursive_drawn_once : recursive.Loaded ∧ recursive.kind 4 = .element ∧
    recursive.DefinitionsApart ∧ (4 :: recursive.drawnPatterns .full 4).Nodup := by
  have apart : recursive.DefinitionsApart := by decide +kernel
  have element : recursive.kind 4 = .element := by decide +kernel
  have once := (nodup_drawn_iff recursive_loaded element .full).2.2 apart
  exact ⟨recursive_loaded, element, apart, once⟩

theorem enclosed_drawsFrom : enclosed.DrawsFrom .simple 2 (.definition 6) := by
  have inner : enclosed.Meets .simple (enclosed.ownKeys 2) (enclosed.contentChildren 2) 3 :=
    .top (by decide +kernel)
  have start : enclosed.Meets .simple (enclosed.ownKeys 2) (enclosed.contentChildren 2) 4 :=
    .onward inner (by decide +kernel)
  refine ⟨by decide +kernel, 5, ⟨some 3, "x"⟩, .onward start ?_, ?_⟩ <;> decide +kernel

theorem enclosed_gives : enclosed.Gives .simple 2 .start 7 := by
  have inner : enclosed.Gives .simple 2 .start 3 := .top (by decide +kernel)
  have define : enclosed.Gives .simple 2 .start 6 := .onward inner (by decide +kernel)
  exact .onward define (by decide +kernel)

/-- A diagram may draw a pattern twice. -/
theorem exists_drawn_repeated : ¬ ∀ g : Grammar, g.Loaded → ∀ id, g.kind id = .element →
    ∀ detail, (id :: g.drawnPatterns detail id).Nodup := by
  intro always
  have once := always enclosed enclosed_loaded 2 (by decide +kernel) .simple
  have given := (nodup_drawnPatterns_iff enclosed_loaded).1 (List.nodup_cons.1 once).2 7
    (isShown_of_element (by decide +kernel))
  have same := given .start (.definition 6) trivial enclosed_drawsFrom enclosed_gives
    (.top (by decide +kernel))
  cases same

end RelaxDoc.Grammar
