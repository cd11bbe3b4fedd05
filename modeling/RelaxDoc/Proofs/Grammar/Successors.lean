import RelaxDoc.Proofs.Grammar.Labels

/-! What comes next behind an element of a document. The remark of a value is the element next to it, if
that one is documentation, and nothing else. -/
namespace RelaxDoc

open Xml (Address)

namespace Xml

/-- The next element behind a position among nodes. -/
structure ComesNext (nodes : List Node) (step next : Nat) (tag : Tag) (children : List Node) :
    Prop where
  lt : step < next
  found : nodes[next]? = some (.element tag children)
  /-- What stands between is text, comments and instructions. -/
  between : ∀ other, step < other → other < next → ∀ node, nodes[other]? = some node →
    node.tag? = none

theorem firstTag?_eq_some_iff {nodes : List Node} {tag : Tag} : firstTag? nodes = some tag ↔
    ∃ (index : Nat) (children : List Node), nodes[index]? = some (.element tag children) ∧
      ∀ other < index, ∀ node, nodes[other]? = some node → node.tag? = none := by
  induction nodes with
  | nil => simp [firstTag?]
  | cons node rest ih =>
    unfold firstTag? at ih ⊢
    cases node with
    | element first children =>
      constructor
      · intro found
        cases found
        exact ⟨0, children, rfl, fun other less => absurd less (Nat.not_lt_zero other)⟩
      · rintro ⟨index, content, found, before⟩
        cases index with
        | zero =>
          cases found
          rfl
        | succ index => cases before 0 (Nat.succ_pos index) _ rfl
    | text | comment | instruction =>
      change rest.findSome? Node.tag? = some tag ↔ _
      rw [ih]
      constructor
      · rintro ⟨index, content, found, before⟩
        refine ⟨index + 1, content, found, fun other less node here => ?_⟩
        cases other with
        | zero =>
          cases here
          rfl
        | succ other => exact before other (by omega) node here
      · rintro ⟨index, content, found, before⟩
        cases index with
        | zero => cases found
        | succ index =>
          exact ⟨index, content, found, fun other less => before (other + 1) (by omega)⟩

theorem firstTag?_drop_iff {nodes : List Node} {step : Nat} {tag : Tag} :
    firstTag? (nodes.drop (step + 1)) = some tag ↔
      ∃ next children, ComesNext nodes step next tag children := by
  simp only [firstTag?_eq_some_iff, List.getElem?_drop]
  constructor
  · rintro ⟨index, children, found, before⟩
    refine ⟨step + 1 + index, children, by omega, found, fun other after less => ?_⟩
    obtain ⟨offset, rfl⟩ := Nat.exists_eq_add_of_le (show step + 1 ≤ other by omega)
    exact before offset (by omega)
  · rintro ⟨next, children, after, found, between⟩
    obtain ⟨offset, rfl⟩ := Nat.exists_eq_add_of_le (show step + 1 ≤ next by omega)
    exact ⟨offset, children, found, fun other less => between _ (by omega) (by omega)⟩

/-- A value is remarked if the element next to it is documentation. -/
theorem Node.remarked_labelAt? {root outer : Node} {scope : Scope} {following : List Node}
    {around : Address} {step : Nat} {label : Label} (above : root.at? around = some outer)
    (said : root.labelAt? scope following (around ++ [step]) = some label) :
    label.remarked = true ↔ label.kind = .value ∧ ∃ tag,
      firstTag? (outer.children.drop (step + 1)) = some tag ∧
        Kind.ofName? tag.name = some .documentation := by
  induction around generalizing root scope following with
  | nil =>
    cases above
    cases outer with
    | element tag children =>
      obtain ⟨child, here, said⟩ := Option.bind_eq_some_iff.1 said
      cases child with
      | element tag inner =>
        obtain ⟨kind, -, rfl⟩ := Option.map_eq_some_iff.1 said
        simp [Label.ofTag, Option.any_eq_true, Node.children]
      | text | comment | instruction => cases said
    | text | comment | instruction => cases said
  | cons index rest ih =>
    obtain ⟨child, here, below⟩ := at?_cons.1 above
    cases root with
    | element tag children =>
      obtain ⟨child, there, said⟩ := Option.bind_eq_some_iff.1 said
      cases here.symm.trans there
      exact ih below said
    | text | comment | instruction => cases said

theorem Node.remarked_labelAt?_nil {root : Node} {scope : Scope} {label : Label}
    (said : root.labelAt? scope [] [] = some label) : label.remarked = false := by
  cases root with
  | element tag children =>
    obtain ⟨kind, -, rfl⟩ := Option.map_eq_some_iff.1 said
    simp [Label.ofTag, firstTag?]
  | text | comment | instruction => cases said

end Xml

/-- The element at an address has documentation at `behind`, with some content, for the next element
around it. -/
def Documented (root : Xml.Node) (address behind : Address) (content : List Xml.Node) : Prop :=
  ∃ around step next outer tag, address = around ++ [step] ∧ behind = around ++ [next] ∧
    root.at? around = some outer ∧ Xml.ComesNext outer.children step next tag content ∧
    tag.name = ⟨some Namespace.compatibility, "documentation"⟩

namespace Grammar

/-- A node is documentation and stands right behind another, in the grammar and in the one parent. -/
structure IsRemark (g : Grammar) (id remark : Nat) : Prop where
  next : remark = id + 1
  inside : remark < g.size
  kind : g.kind remark = .documentation
  siblings : ∃ outer front back, g.parent? id = some outer ∧ g.parent? remark = some outer ∧
    g.children outer = front ++ id :: remark :: back

variable {g : Grammar} {limits : Limits} {document : Xml.Document} {id remark outer : Nat}
  {address : Address}

/-- Children whose positions follow each other stand side by side. -/
theorem children_split (child : id ∈ g.children outer) (also : id + 1 ∈ g.children outer) :
    ∃ front back, g.children outer = front ++ id :: (id + 1) :: back := by
  obtain ⟨front, later, split⟩ := List.append_of_mem child
  have sorted := g.children_sorted outer
  rw [split] at sorted also
  obtain ⟨-, sorted, before⟩ := List.pairwise_append.1 sorted
  rcases List.mem_append.1 also with early | also
  · have := before _ early id (List.mem_cons_self ..)
    omega
  rcases List.mem_cons.1 also with same | also
  · omega
  cases later with
  | nil => cases also
  | cons next back =>
    have after := List.rel_of_pairwise_cons sorted (List.mem_cons_self ..)
    rcases List.mem_cons.1 also with rfl | also
    · exact ⟨front, back, split⟩
    · have := List.rel_of_pairwise_cons sorted.of_cons also
      omega

theorem remark_isSome_iff (read : ofDocument limits document = .ok g)
    (found : (keptAddresses document.toNode)[id]? = some address) :
    (∃ remark, (g.node id).remark = some remark) ↔
      g.kind id = .value ∧ ∃ behind content, Documented document.toNode address behind content := by
  obtain ⟨label, said, tells⟩ := quotes_of_read read found
  rw [← Option.isSome_iff_exists, tells.remark, show g.kind id = label.kind from tells.kind]
  rcases List.eq_nil_or_concat address with rfl | ⟨around, step, rfl⟩
  · rw [Xml.Node.remarked_labelAt?_nil said]
    simp [Documented]
  · rw [List.concat_eq_append] at found said ⊢
    obtain ⟨⟨node, _, reached, _⟩, _⟩ := (enumerates_of_read read).retained found
    obtain ⟨outer, above, _⟩ := Xml.Node.at?_concat_iff.1 reached
    rw [Xml.Node.remarked_labelAt? above said]
    simp only [Xml.firstTag?_drop_iff, Kind.ofName?_eq_some_iff]
    refine and_congr_right fun _ => ⟨?_, ?_⟩
    · rintro ⟨tag, ⟨next, content, comes⟩, name⟩
      exact ⟨_, content, around, step, next, outer, tag, rfl, rfl, above, comes, name⟩
    · rintro ⟨_, content, around', step', next, outer', tag, same, rfl, above', comes, name⟩
      obtain ⟨rfl, last⟩ := List.append_inj' same rfl
      cases last
      cases above.symm.trans above'
      exact ⟨tag, ⟨next, content, comes⟩, name⟩

/-- The remark of a value is the documentation next to it in the document. -/
theorem remark_of_documented (read : ofDocument limits document = .ok g)
    (found : (keptAddresses document.toNode)[id]? = some address)
    (named : (g.node id).remark = some remark) {behind : Address} {content : List Xml.Node}
    (documented : Documented document.toNode address behind content) :
    g.IsRemark id remark ∧ (keptAddresses document.toNode)[remark]? = some behind ∧
      (g.node remark).text = some (Xml.fullTexts content) := by
  have loaded : g.Loaded := ⟨limits, document, read⟩
  have enumerates := enumerates_of_read read
  obtain ⟨around, step, next, outer, tag, rfl, rfl, above, comes, name⟩ := documented
  obtain ⟨rfl, sibling⟩ := remark_of_read read named
  obtain ⟨parent, up, there⟩ := enumerates.parent id around step found
  have up' : g.parent? (id + 1) = some parent := sibling.trans up
  have also := loaded.mem_children_iff.2 up'
  obtain ⟨place, here⟩ := (enumerates.mem_children_iff loaded there).1 also
  have reached := Xml.Node.at?_concat_iff.2 ⟨outer, above, comes.found⟩
  have known : Kind.ofName? tag.name = some .documentation := Kind.ofName?_eq_some_iff.2 name
  have kept : Retained document.toNode (around ++ [next]) := by
    obtain ⟨node, again, looked⟩ :=
      (enumerates.retained found).2 around (List.prefix_append ..) (by simp)
    cases above.symm.trans again
    exact (enumerates.retained there).concat above looked comes.found known
  have listed := enumerates.getElem?_idxOf kept
  -- No node comes between the value and its remark, and no element between their elements.
  have same : place = next := by
    have after := (enumerates.siblings_lt_iff found here).1 (Nat.lt_succ_self id)
    have order := enumerates.siblings_lt_iff found listed
    have less := comes.lt
    rcases Nat.lt_trichotomy place next with before | same | beyond
    · obtain ⟨⟨node, kind, element, known⟩, _⟩ := enumerates.retained here
      obtain ⟨again, above', inside⟩ := Xml.Node.at?_concat_iff.1 element
      cases above.symm.trans above'
      have none := comes.between place after before node inside
      cases node with
      | element => cases none
      | text | comment | instruction => cases known
    · exact same
    · have := (enumerates.siblings_lt_iff listed here).2 beyond
      omega
  subst same
  refine ⟨⟨rfl, enumerates.lt_size here, ?_, ?_⟩, here, ?_⟩
  · have kind := enumerates.kind_eq here reached
    rw [Kind.ofNode?, known] at kind
    exact (Option.some.inj kind).symm
  · obtain ⟨front, back, split⟩ := children_split (loaded.mem_children_iff.2 up) also
    exact ⟨parent, front, back, up, up', split⟩
  · obtain ⟨_, _, again, records⟩ := enumerates.depicts _ _ here
    cases reached.symm.trans again
    have kind := records.kind
    rw [known] at kind
    exact records.documentation (Option.some.inj kind).symm

/-- Exactly the values with documentation for the next element have a remark, and it is this element:
the node right behind the value, in the same parent, with the text of the documentation. -/
theorem remark_iff_documented (read : ofDocument limits document = .ok g) :
    ∃ addresses, g.Enumerates document.toNode addresses ∧
      ∀ id address, addresses[id]? = some address →
        ((∃ remark, (g.node id).remark = some remark) ↔ g.kind id = .value ∧
          ∃ behind content, Documented document.toNode address behind content) ∧
        ∀ remark, (g.node id).remark = some remark →
          g.IsRemark id remark ∧ ∃ behind content,
            Documented document.toNode address behind content ∧
              addresses[remark]? = some behind ∧
              (g.node remark).text = some (Xml.fullTexts content) := by
  refine ⟨_, enumerates_of_read read, fun id address found => ?_⟩
  have noted := remark_isSome_iff read found
  refine ⟨noted, fun remark named => ?_⟩
  obtain ⟨_, behind, content, documented⟩ := noted.1 ⟨remark, named⟩
  obtain ⟨isRemark, listed, text⟩ := remark_of_documented read found named documented
  exact ⟨isRemark, behind, content, documented, listed, text⟩

/-- In `remarkedDocument` the value at 3 has the remark at 4. -/
theorem remarked_isRemark : ∃ g addresses address behind content,
    ofDocument .standard remarkedDocument = .ok g ∧
      g.Enumerates remarkedDocument.toNode addresses ∧ addresses[3]? = some address ∧
      Documented remarkedDocument.toNode address behind content ∧ g.IsRemark 3 4 ∧
      addresses[4]? = some behind ∧ (g.node 4).text = some (Xml.fullTexts content) := by
  have read : ofDocument .standard remarkedDocument = .ok (ofKept remarkedDocument rfl) :=
    ofDocument_eq_ok_iff.2 ⟨rfl, rfl, _, rfl, rfl⟩
  have named : ((ofKept remarkedDocument rfl).node 3).remark = some 4 := by decide +kernel
  have inside : 3 < (ofKept remarkedDocument rfl).size := by decide +kernel
  obtain ⟨addresses, enumerates, noted⟩ := remark_iff_documented read
  obtain ⟨address, found⟩ := enumerates.exists_address inside
  obtain ⟨isRemark, behind, content, documented, listed, text⟩ := (noted 3 address found).2 4 named
  exact ⟨_, addresses, address, behind, content, read, enumerates, found, documented, isRemark,
    listed, text⟩

end Grammar

end RelaxDoc
