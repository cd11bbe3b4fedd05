import RelaxDoc.Grammar.Definitions

/-! The definitions of a key and the references to it, as the nodes that carry the key. -/
namespace RelaxDoc

/-- There are nodes only at positions below the size; elsewhere the kind is `empty`. -/
theorem Arena.lt_size_of_kind (a : Arena) {id : Nat} (full : a.kind id ≠ .empty) : id < a.size := by
  refine Nat.lt_of_not_le fun beyond => full ?_
  rw [kind, node, nodeAt, Array.getD_eq_getD_getElem?, Array.getElem?_eq_none beyond]
  rfl

theorem Arena.mem_ofKind (a : Arena) {kind : Kind} (full : kind ≠ .empty) {id : Nat} :
    id ∈ a.ofKind kind ↔ a.kind id = kind := by
  simp only [ofKind, ids, List.mem_filter, List.mem_range, decide_eq_true_eq, and_iff_right_iff_imp]
  intro same
  exact a.lt_size_of_kind (same ▸ full)

/-- The nodes of a kind come in document order. -/
theorem Arena.ofKind_sorted (a : Arena) (kind : Kind) : (a.ofKind kind).Pairwise (· < ·) :=
  List.pairwise_lt_range.filter _

/-- The nodes under a key are picked from all nodes, so they keep the document order. -/
theorem Arena.find_keyed (a : Arena) (wanted : Kind → Bool) (key : DefineKey) :
    (KeyIndex.ofPairs (a.keyed wanted)).find key =
      a.ids.filter fun id => wanted (a.kind id) && a.defineKey? id = some key := by
  rw [KeyIndex.find_ofPairs, keyed, List.filterMap_filterMap, ← List.filterMap_eq_filter]
  congr 1
  funext id
  simp only [Option.guard]
  by_cases kept : wanted (a.kind id) = true
  · rcases Option.eq_none_or_eq_some (a.defineKey? id) with unnamed | ⟨other, named⟩
    · simp [unnamed]
    · by_cases same : other = key <;> simp [kept, named, same]
  · simp [kept]

/-- Every entry of an index lists nodes that come with its key in `pairs`, one at least. -/
def KeyIndex.Filled (pairs : List (DefineKey × Nat)) (index : KeyIndex) : Prop :=
  ∀ entry ∈ index, entry.2 ≠ [] ∧ ∀ id ∈ entry.2, (entry.1, id) ∈ pairs

theorem KeyIndex.Filled.add {pairs : List (DefineKey × Nat)} {index : KeyIndex}
    {key : DefineKey} {id : Nat} (filled : Filled pairs index) (member : (key, id) ∈ pairs) :
    Filled pairs (KeyIndex.add key id index) := by
  induction index with
  | nil => simp [Filled, KeyIndex.add, member]
  | cons entry rest ih =>
    obtain ⟨head, tail⟩ := List.forall_mem_cons.1 filled
    rw [KeyIndex.add]
    split
    · rename_i same
      refine List.forall_mem_cons.2 ⟨⟨by simp, fun other among => ?_⟩, tail⟩
      rcases List.mem_append.1 among with earlier | last
      · exact same ▸ head.2 other earlier
      · rw [List.mem_singleton.1 last]
        exact member
    · exact List.forall_mem_cons.2 ⟨head, ih tail⟩

theorem KeyIndex.filled_ofPairs (pairs : List (DefineKey × Nat)) :
    Filled pairs (ofPairs pairs) := by
  refine List.foldlRecOn pairs _ (motive := Filled pairs) nofun ?_
  intro index filled pair member
  exact filled.add member

namespace Arena

variable {a : Arena} {id scope : Nat} {key : DefineKey}

theorem mem_keyed {wanted : Kind → Bool} (member : (key, id) ∈ a.keyed wanted) :
    id < a.size ∧ a.defineKey? id = some key := by
  obtain ⟨other, inside, found⟩ := List.mem_filterMap.1 member
  split at found
  · obtain ⟨named, known, same⟩ := Option.map_eq_some_iff.1 found
    cases same
    exact ⟨List.mem_range.1 inside, known⟩
  · cases found

theorem kind_of_enclosing? {kind : Kind} (found : a.enclosing? id kind = some scope) :
    a.kind scope = kind := by
  simpa using List.find?_some found

/-- The scope of a key is a grammar. -/
theorem scope_of_defineKey? (found : a.defineKey? id = some key) (within : key.scope = some scope) :
    a.kind scope = .grammar := by
  simp only [defineKey?] at found
  split at found
  · cases found
  · split at found
    · cases found
      exact kind_of_enclosing? within
    · cases found
      exact kind_of_enclosing? within
    · cases found
      obtain ⟨inner, _, around⟩ := Option.bind_eq_some_iff.1 within
      exact kind_of_enclosing? around
    · cases found

/-- The keys and the nodes of an index of an arena stand for nodes of the arena. -/
theorem lt_size_of_keyed {wanted : Kind → Bool} {entry : DefineKey × List Nat}
    (member : entry ∈ KeyIndex.ofPairs (a.keyed wanted)) :
    (∀ scope, entry.1.scope = some scope → scope < a.size) ∧ ∀ id ∈ entry.2, id < a.size := by
  obtain ⟨filled, pairs⟩ := KeyIndex.filled_ofPairs (a.keyed wanted) entry member
  refine ⟨fun scope within => ?_, fun id among => (mem_keyed (pairs id among)).1⟩
  obtain ⟨id, among⟩ := List.exists_mem_of_ne_nil _ filled
  have grammar := scope_of_defineKey? (mem_keyed (pairs id among)).2 within
  exact a.lt_size_of_kind (by simp [grammar])

end Arena

namespace Grammar

variable (g : Grammar)

theorem definesOf_eq (key : DefineKey) :
    g.definesOf key = g.ids.filter fun id => g.kind id = .define && g.defineKey? id = some key := by
  rw [definesOf, g.table_eq]
  exact g.find_keyed _ key

theorem referencesTo_eq (key : DefineKey) :
    g.referencesTo key =
      g.ids.filter fun id => (g.kind id).isReference && g.defineKey? id = some key := by
  rw [referencesTo, g.table_eq]
  exact g.find_keyed _ key

theorem mem_definesOf {key : DefineKey} {id : Nat} :
    id ∈ g.definesOf key ↔ g.kind id = .define ∧ g.defineKey? id = some key := by
  rw [definesOf_eq]
  simp only [Arena.ids, List.mem_filter, List.mem_range, Bool.and_eq_true, decide_eq_true_eq,
    and_iff_right_iff_imp]
  intro ⟨define, _⟩
  exact g.lt_size_of_kind (by simp [define])

theorem mem_referencesTo {key : DefineKey} {id : Nat} :
    id ∈ g.referencesTo key ↔ (g.kind id).isReference = true ∧ g.defineKey? id = some key := by
  rw [referencesTo_eq]
  simp only [Arena.ids, List.mem_filter, List.mem_range, Bool.and_eq_true, decide_eq_true_eq,
    and_iff_right_iff_imp]
  intro ⟨reference, _⟩
  refine g.lt_size_of_kind fun blank => ?_
  rw [blank] at reference
  cases reference

theorem definesOf_nodup (key : DefineKey) : (g.definesOf key).Nodup := by
  rw [definesOf_eq]
  exact List.nodup_range.filter _

/-- Definitions of different keys are different, so those of several keys repeat nothing. -/
theorem flatMap_definesOf_nodup {keys : List DefineKey} (distinct : keys.Nodup) :
    (keys.flatMap g.definesOf).Nodup := by
  induction keys with
  | nil => exact .nil
  | cons key rest ih =>
    obtain ⟨absent, tail⟩ := List.nodup_cons.1 distinct
    rw [List.flatMap_cons, List.nodup_append]
    refine ⟨g.definesOf_nodup key, ih tail, ?_⟩
    intro one first other second same
    obtain ⟨later, member, second⟩ := List.mem_flatMap.1 second
    have here := (g.mem_definesOf.1 first).2
    rw [same, (g.mem_definesOf.1 second).2] at here
    exact absent (Option.some.inj here ▸ member)

end Grammar

end RelaxDoc
