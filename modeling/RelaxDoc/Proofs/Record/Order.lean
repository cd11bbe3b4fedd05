import RelaxDoc.Proofs.Grammar.Rearrangement
import RelaxDoc.Proofs.Record.Echoes

/-! The order of definitions. Where it is kept among definitions of one key, the documentation of a
grammar does not depend on it, but for the ids of the elements. -/
namespace RelaxDoc

open Xml (Address)

/-- Nodes that say the same, but for what comes behind them. -/
structure Node.SaysLike (node other : Node) : Prop where
  kind : other.kind = node.kind
  attributes : other.attributes = node.attributes
  text : other.text = node.text
  prefixes : other.prefixes = node.prefixes

namespace Grammar

/-- Definitions of one key are in the same order when the nodes in the root have moved. -/
def KeepsOrder (g : Grammar) (document : Xml.Document) (place : Equiv.Perm Nat) : Prop :=
  ∀ key ∈ g.definedKeys, ∀ one ∈ g.definesOf key, ∀ two ∈ g.definesOf key,
    ∀ first ∈ (keptAddresses document.toNode)[one]?,
    ∀ second ∈ (keptAddresses document.toNode)[two]?,
      first < second → moved place first < moved place second

instance (g : Grammar) (document : Xml.Document) (place : Equiv.Perm Nat) :
    Decidable (g.KeepsOrder document place) := by unfold KeepsOrder; infer_instance

/-- The numbers of the nodes of a document in another order of its root. -/
def reordered (place : Equiv.Perm Nat) (document other : Xml.Document) : Nat → Nat :=
  renumbering (keptAddresses document.toNode) (keptAddresses other.toNode) (moved place)

/-- A grammar and the one that is read from its document in another order of the root, with the new
numbers of its nodes. -/
structure Reorders (g h : Grammar) (image : Nat → Nat) (place : Equiv.Perm Nat)
    (document other : Xml.Document) : Prop where
  rearranges : document.Rearranges place other
  read : ∃ limits, ofDocument limits document = .ok g
  reread : ∃ limits, ofDocument limits other = .ok h
  image_eq : image = reordered place document other

namespace Reorders

variable {g h : Grammar} {image : Nat → Nat} {place : Equiv.Perm Nat}
  {document other : Xml.Document} {id outer : Nat}
  (reorders : Reorders g h image place document other)

include reorders

theorem loaded : g.Loaded := by
  obtain ⟨limits, read⟩ := reorders.read
  exact ⟨limits, document, read⟩

theorem reloaded : h.Loaded := by
  obtain ⟨limits, reread⟩ := reorders.reread
  exact ⟨limits, other, reread⟩

theorem before : g.Enumerates document.toNode (keptAddresses document.toNode) := by
  obtain ⟨limits, read⟩ := reorders.read
  exact enumerates_of_read read

theorem after : h.Enumerates other.toNode (keptAddresses other.toNode) := by
  obtain ⟨limits, reread⟩ := reorders.reread
  exact enumerates_of_read reread

theorem getElem?_image (id : Nat) : (keptAddresses other.toNode)[image id]? =
    (keptAddresses document.toNode)[id]?.map (moved place) := by
  rw [reorders.image_eq]
  exact getElem?_renumbering reorders.rearranges.keptAddresses_perm id

/-- A number is that of a node with an address, or of no node in either order. -/
theorem listed_or_blank (id : Nat) :
    (∃ address, (keptAddresses document.toNode)[id]? = some address ∧
      (keptAddresses other.toNode)[image id]? = some (moved place address)) ∨
    (g.node id = .blank ∧ h.node (image id) = .blank) := by
  have there := reorders.getElem?_image id
  cases found : (keptAddresses document.toNode)[id]? with
  | some address =>
    rw [found] at there
    exact .inl ⟨address, rfl, there⟩
  | none =>
    rw [found] at there
    refine .inr ⟨node_of_size_le ?_, node_of_size_le ?_⟩
    · exact reorders.before.length_eq ▸ List.getElem?_eq_none_iff.1 found
    · exact reorders.after.length_eq ▸ List.getElem?_eq_none_iff.1 there

/-- A node says the same in both orders. -/
theorem saysLike (id : Nat) : (g.node id).SaysLike (h.node (image id)) := by
  obtain ⟨_, read⟩ := reorders.read
  obtain ⟨_, reread⟩ := reorders.reread
  rcases reorders.listed_or_blank id with ⟨address, found, there⟩ | ⟨one, two⟩
  · obtain ⟨label, said, tells⟩ := quotes_of_read read found
    obtain ⟨further, again, also⟩ := quotes_of_read reread there
    have same := reorders.rearranges.unremarked_labelAt?_moved address
    rw [said, again] at same
    have same : further.unremarked = label.unremarked := Option.some.inj same
    refine ⟨?_, ?_, ?_, ?_⟩
    · exact also.kind.trans ((congrArg Label.kind same).trans tells.kind.symm)
    · exact also.attributes.trans ((congrArg Label.attributes same).trans tells.attributes.symm)
    · exact also.text.trans ((congrArg Label.text same).trans tells.text.symm)
    · exact also.prefixes.trans ((congrArg Label.prefixes same).trans tells.prefixes.symm)
  · rw [one, two]
    exact ⟨rfl, rfl, rfl, rfl⟩

theorem name? (id : Nat) : (h.node (image id)).name? = (g.node id).name? :=
  congrArg (List.lookup "name") (reorders.saysLike id).attributes

theorem parent? (id : Nat) : h.parent? (image id) = (g.parent? id).map image := by
  rcases reorders.listed_or_blank id with ⟨address, found, there⟩ | ⟨one, two⟩
  · rcases List.eq_nil_or_concat address with rfl | ⟨around, step, split⟩
    · rw [reorders.before.parent?_of_nil found, reorders.after.parent?_of_nil there]
      rfl
    · rw [List.concat_eq_append] at split
      subst split
      obtain ⟨last, same⟩ := exists_moved_concat place around step
      rw [same] at there
      obtain ⟨outer, above, listed⟩ := reorders.before.parent id around step found
      have moves := reorders.getElem?_image outer
      rw [listed, Option.map_some] at moves
      rw [above, Option.map_some, reorders.after.parent?_eq there, reorders.after.idxOf_eq moves]
  · rw [Arena.parent?, Arena.parent?, one, two]
    rfl

theorem aligned : g.Aligned h image where
  bijective := by
    rw [reorders.image_eq]
    apply renumbering_bijective reorders.rearranges.keptAddresses_perm
    · exact reorders.before.nodup
    · exact moved_injective place
  kind id := (reorders.saysLike id).kind
  parent := reorders.parent?

/-- An inner node is not at the address of the root. -/
theorem ne_nil_of_isInner {address : Address} (inner : g.IsInner id)
    (found : (keptAddresses document.toNode)[id]? = some address) : address ≠ [] := by
  rintro rfl
  have first : keptAddresses document.toNode = [] :: _ :=
    keptAddresses_element reorders.rearranges.grammar document.children
  have top : id = Arena.root := by
    rw [← reorders.before.idxOf_eq found, first, List.idxOf_cons_self]
    rfl
  have kind := reorders.before.kind_eq found rfl
  exact inner top (Option.some.inj (kind.symm.trans reorders.rearranges.grammar))

/-- The order of siblings is the same, but for the children of the root. -/
theorem image_lt (inner : g.IsInner outer) {one two : Nat} (first : one ∈ g.children outer)
    (second : two ∈ g.children outer) (less : one < two) : image one < image two := by
  obtain ⟨around, found⟩ := reorders.before.exists_address
    (Nat.lt_trans (g.lt_of_mem_children first) (g.child_lt_size first))
  have deep := reorders.ne_nil_of_isInner inner found
  obtain ⟨step, there⟩ := (reorders.before.mem_children_iff reorders.loaded found).1 first
  obtain ⟨next, further⟩ := (reorders.before.mem_children_iff reorders.loaded found).1 second
  have steps := concat_lt_concat_iff.1 ((reorders.before.lt_iff there further).1 less)
  have one := reorders.getElem?_image one
  have two := reorders.getElem?_image two
  rw [there, Option.map_some, moved_append place deep] at one
  rw [further, Option.map_some, moved_append place deep] at two
  exact (reorders.after.lt_iff one two).2 (concat_lt_concat_iff.2 steps)

theorem children (inner : g.IsInner id) : h.children (image id) = (g.children id).map image := by
  have aligned := reorders.aligned
  apply List.Pairwise.eq_of_mem_iff (h.children_sorted _)
  · refine List.pairwise_map.2 ((g.children_sorted id).imp_of_mem ?_)
    intro one two first second less
    exact reorders.image_lt inner first second less
  · intro child
    obtain ⟨child, rfl⟩ := aligned.bijective.surjective child
    rw [List.mem_map_of_injective aligned.bijective.injective, reorders.reloaded.mem_children_iff,
      reorders.loaded.mem_children_iff, aligned.parent, Option.map_eq_some_iff]
    simp [aligned.bijective.injective.eq_iff]

theorem isSome_remark (above : g.parent? id = some outer) (inner : g.IsInner outer) :
    (h.node (image id)).remark.isSome = (g.node id).remark.isSome := by
  obtain ⟨_, read⟩ := reorders.read
  obtain ⟨_, reread⟩ := reorders.reread
  rcases reorders.listed_or_blank id with ⟨address, found, there⟩ | ⟨one, two⟩
  · rcases List.eq_nil_or_concat address with rfl | ⟨around, step, split⟩
    · rw [reorders.before.parent?_of_nil found] at above
      cases above
    · rw [List.concat_eq_append] at split
      subst split
      obtain ⟨further, also, listed⟩ := reorders.before.parent id around step found
      rw [above] at also
      cases also
      obtain ⟨label, said, tells⟩ := quotes_of_read read found
      obtain ⟨_, again, same⟩ := quotes_of_read reread there
      have deep := reorders.ne_nil_of_isInner inner listed
      rw [reorders.rearranges.labelAt?_moved deep step, said] at again
      cases again
      exact same.remark.trans tells.remark.symm
  · rw [one, two]

/-- A value in an inner node has its remark, as what comes behind it there is the same. -/
theorem remark (above : g.parent? id = some outer) (inner : g.IsInner outer) :
    (h.node (image id)).remark = (g.node id).remark.map image := by
  obtain ⟨_, read⟩ := reorders.read
  obtain ⟨_, reread⟩ := reorders.reread
  have aligned := reorders.aligned
  have present := reorders.isSome_remark above inner
  cases named : (g.node id).remark with
  | none =>
    rw [named] at present
    exact Option.not_isSome_iff_eq_none.1 (Bool.eq_false_iff.1 present)
  | some remark =>
    rw [named] at present
    obtain ⟨other, again⟩ := Option.isSome_iff_exists.1 present
    obtain ⟨child, rfl⟩ := aligned.bijective.surjective other
    obtain ⟨behind, siblings⟩ := remark_of_read read named
    obtain ⟨next, also⟩ := remark_of_read reread again
    have parent : g.parent? child = some outer := by
      rw [aligned.parent, aligned.parent, above] at also
      exact Option.map_injective aligned.bijective.injective also
    have member := reorders.loaded.mem_children_iff.2 above
    have within := reorders.loaded.mem_children_iff.2 parent
    have beside := reorders.loaded.mem_children_iff.2 (siblings.trans above)
    -- Both come right behind the value among children that are in the same order.
    have after : id < child := by
      rcases Nat.lt_trichotomy id child with less | rfl | more
      · exact less
      · omega
      · have := reorders.image_lt inner within member more
        omega
    have same : child = remark := by
      rcases Nat.lt_or_eq_of_le (show remark ≤ child by omega) with less | same
      · have one := reorders.image_lt inner member beside (by omega)
        have two := reorders.image_lt inner beside within less
        omega
      · exact same.symm
    rw [again, same, Option.map_some]

section Kept

variable (keeps : g.KeepsOrder document place)

include keeps

theorem image_lt_of_define {key : DefineKey} {one two : Nat} (first : one ∈ g.definesOf key)
    (second : two ∈ g.definesOf key) (less : one < two) : image one < image two := by
  have inside {id : Nat} (member : id ∈ g.definesOf key) : id < g.size :=
    g.lt_size_of_kind (by rw [(g.mem_definesOf.1 member).1]; decide)
  obtain ⟨here, found⟩ := reorders.before.exists_address (inside first)
  obtain ⟨there, further⟩ := reorders.before.exists_address (inside second)
  have address := reorders.getElem?_image one
  have behind := reorders.getElem?_image two
  rw [found, Option.map_some] at address
  rw [further, Option.map_some] at behind
  apply (reorders.after.lt_iff address behind).2
  apply keeps key (mem_defines_of_mem_definesOf first) one first two second here found there further
  exact (reorders.before.lt_iff found further).1 less

theorem definesOf (key : DefineKey) :
    h.definesOf (rescope image key) = (g.definesOf key).map image := by
  have aligned := reorders.aligned
  have injective := aligned.bijective.injective
  apply List.Pairwise.eq_of_mem_iff (h.definesOf_sorted _)
  · refine List.pairwise_map.2 ((g.definesOf_sorted key).imp_of_mem ?_)
    intro one two first second less
    exact reorders.image_lt_of_define keeps first second less
  · intro id
    obtain ⟨id, rfl⟩ := aligned.bijective.surjective id
    rw [List.mem_map_of_injective injective, mem_definesOf, mem_definesOf, aligned.kind,
      aligned.defineKey? (reorders.name? id), Option.map_eq_some_iff]
    simp [(rescope_injective injective).eq_iff]

theorem echoes : g.Echoes h image (rescope image) where
  toAligned := reorders.aligned
  distinct := rescope_injective reorders.aligned.bijective.injective
  children _ inner := reorders.children inner
  key id := reorders.aligned.defineKey? (reorders.name? id)
  defines := reorders.definesOf keeps
  unnamed id _ := by rw [reorders.name?]
  attributes id _ _ := (reorders.saysLike id).attributes
  ns id := congrArg (List.lookup "ns") (reorders.saysLike id).attributes
  text id := (reorders.saysLike id).text
  prefixes id := (reorders.saysLike id).prefixes
  remark _ _ above inner := reorders.remark above inner

end Kept

end Reorders

/-- A document whose definitions, or whatever else stands in its root, are in another order, kept
among definitions of one key, is read as well. Its documentation has the same records, up to the
ids: those are in the order of the elements. -/
theorem records_reordered {g : Grammar} {limits : Limits} {place : Equiv.Perm Nat}
    {document other : Xml.Document} (rearranges : document.Rearranges place other)
    (read : ofDocument limits document = .ok g) (keeps : g.KeepsOrder document place) :
    ∃ h, ofDocument limits other = .ok h ∧ ∃ image renumber : Nat → Nat,
      Function.Bijective image ∧ Function.Bijective renumber ∧
      (∀ id, (keptAddresses other.toNode)[image id]? =
        (keptAddresses document.toNode)[id]?.map (moved place)) ∧
      (∀ number, h.elementIndex.nodeOf? (renumber number) =
        (g.elementIndex.nodeOf? number).map image) ∧
      ∀ number, (Documentation.ofGrammar h).elements[renumber number]? =
        (Documentation.ofGrammar g).elements[number]?.map (ElementRecord.renumber renumber) := by
  obtain ⟨h, reread⟩ := rearranges.exists_read read
  have reorders : Reorders g h (reordered place document other) place document other :=
    ⟨rearranges, ⟨limits, read⟩, ⟨limits, reread⟩, rfl⟩
  have echoes := reorders.echoes keeps
  refine ⟨h, reread, _, renumbered g h (reordered place document other), echoes.bijective,
    echoes.renumbered_bijective, reorders.getElem?_image, echoes.nodeOf?_renumbered, ?_⟩
  exact echoes.elements_renumbered reorders.loaded fun id _ => reorders.name? id

/-- Two definitions of one key, with one of another key between them. -/
def orderedDocument : Xml.Document := .ofContent
  [.pattern .start none [.pattern .element "r" [.pattern .ref "a" [], .pattern .ref "b" []]],
   .pattern .define "a" [.pattern .element "x" [.pattern .empty none []]],
   .pattern .define "b" [.pattern .element "z" [.pattern .empty none []]],
   .pattern .define "a" [.pattern .element "y" [.pattern .empty none []]]]

/-- The document with its first two definitions the other way round. -/
def exchangedDocument : Xml.Document := .ofContent
  [.pattern .start none [.pattern .element "r" [.pattern .ref "a" [], .pattern .ref "b" []]],
   .pattern .define "b" [.pattern .element "z" [.pattern .empty none []]],
   .pattern .define "a" [.pattern .element "x" [.pattern .empty none []]],
   .pattern .define "a" [.pattern .element "y" [.pattern .empty none []]]]

theorem exchanged_rearranges : orderedDocument.Rearranges (Equiv.swap 1 2) exchangedDocument where
  grammar := by decide
  root := rfl
  child step := by
    match step with
    | 0 | 1 | 2 | 3 => rfl
    | step + 4 =>
      rw [Equiv.swap_apply_of_ne_of_ne (by omega) (by omega)]
      rfl

/-- The grammar of `orderedDocument`; the element `x` has the id 1 and is the node 6. -/
def ordered : Grammar := .ofKept orderedDocument rfl

theorem exchanged_records : ordered.KeepsOrder orderedDocument (Equiv.swap 1 2) ∧
    ∃ h, ofDocument .standard exchangedDocument = .ok h ∧ ∃ image renumber : Nat → Nat,
      (keptAddresses exchangedDocument.toNode)[image 6]? = some [2, 0] ∧
      h.elementIndex.nodeOf? (renumber 1) = some (image 6) ∧
      (Documentation.ofGrammar h).elements[renumber 1]? =
        (Documentation.ofGrammar ordered).elements[1]?.map (ElementRecord.renumber renumber) := by
  have read : ofDocument .standard orderedDocument = .ok ordered :=
    ofDocument_eq_ok_iff.2 ⟨rfl, rfl, _, rfl, rfl⟩
  have keeps : ordered.KeepsOrder orderedDocument (Equiv.swap 1 2) := by decide +kernel
  obtain ⟨h, reread, image, renumber, _, _, places, nodes, records⟩ :=
    records_reordered exchanged_rearranges read keeps
  have sixth : (keptAddresses orderedDocument.toNode)[6]? = some [1, 0] := by decide +kernel
  have first : ordered.elementIndex.nodeOf? 1 = some 6 := by decide +kernel
  have place := places 6
  have node := nodes 1
  rw [sixth] at place
  rw [first] at node
  exact ⟨keeps, h, reread, image, renumber, place, node, records 1⟩

end Grammar

end RelaxDoc
