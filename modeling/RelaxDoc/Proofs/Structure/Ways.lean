import RelaxDoc.Proofs.Structure.Locations

/-! How the path to an element is written: a local name for each element on the way, with a number
behind it if the element around holds several of this name. -/
namespace RelaxDoc

namespace Xml

/-- How many elements of a name there are among nodes. -/
def occurrences (name : Name) (nodes : List Node) : Nat :=
  nodes.countP fun node => node.tag?.map Tag.name = some name

/-- The way from a node down to the element at an address of it, as a path writes it. -/
inductive Leads : Node → Address → String → Prop where
  | here (node : Node) : Leads node [] ""
  | only {node : Node} {index : Nat} {tag : Tag} {content : List Node} {rest : Address}
    {way : String} (found : node.children[index]? = some (.element tag content))
    (alone : occurrences tag.name node.children = 1)
    (onward : Leads (.element tag content) rest way) :
    Leads node (index :: rest) ("/" ++ tag.name.localName ++ way)
  | among {node : Node} {index : Nat} {tag : Tag} {content : List Node} {rest : Address}
    {way : String} (found : node.children[index]? = some (.element tag content))
    (several : 1 < occurrences tag.name node.children)
    (onward : Leads (.element tag content) rest way) :
    Leads node (index :: rest)
      ("/" ++ tag.name.localName ++ "[" ++
        toString (occurrences tag.name (node.children.take index) + 1) ++ "]" ++ way)

variable {node : Node} {nodes content : List Node} {index : Nat} {tag : Tag} {address : Address}
  {way : String}

theorem count_elementNames (name : Name) (nodes : List Node) :
    (Site.elementNames nodes).count name = occurrences name nodes := by
  rw [Site.elementNames, List.count, List.countP_filterMap]
  refine List.countP_congr fun node _ => ?_
  cases node.tag? <;> simp

/-- An element is one of its name. -/
theorem occurrences_pos (found : nodes[index]? = some (.element tag content)) :
    0 < occurrences tag.name nodes :=
  List.countP_pos_iff.2 ⟨_, List.mem_of_getElem? found, by simp [Node.tag?]⟩

theorem stepAt_text_of_alone (alone : occurrences tag.name nodes = 1) :
    (stepAt nodes index tag.name).text = tag.name.localName := by
  simp [stepAt, count_elementNames, PathStep.among, PathStep.text, alone]

theorem stepAt_text_of_several (several : 1 < occurrences tag.name nodes) :
    (stepAt nodes index tag.name).text = tag.name.localName ++ "[" ++
      toString (occurrences tag.name (nodes.take index) + 1) ++ "]" := by
  rw [stepAt, count_elementNames, count_elementNames, PathStep.among, if_pos several]
  rfl

/-- The steps to an element are written as the way that leads to it. -/
theorem leads_iff (found : node.at? address = some (.element tag content)) :
    Leads node address way ↔
      way = String.join ((node.stepsTo address).map fun step => "/" ++ step.text) := by
  induction address generalizing node way with
  | nil =>
    refine ⟨fun leads => ?_, ?_⟩
    · cases leads
      rfl
    · rintro rfl
      exact .here node
  | cons index rest ih =>
    obtain ⟨outer, inside, here, below⟩ := Node.exists_first_of_at? found
    have ih {way : String} : Leads (.element outer inside) rest way ↔ _ := ih below
    rw [Node.stepsTo_cons here, List.map_cons, String.join_cons]
    constructor
    · intro leads
      cases leads with
      | only there alone onward =>
        cases here.symm.trans there
        rw [stepAt_text_of_alone alone, ← ih.1 onward]
      | among there several onward =>
        cases here.symm.trans there
        rw [stepAt_text_of_several several, ← ih.1 onward]
        simp only [String.append_assoc]
    · rintro rfl
      rcases Nat.eq_or_lt_of_le (Nat.succ_le_of_lt (occurrences_pos here)) with alone | several
      · rw [stepAt_text_of_alone alone.symm]
        exact .only here alone.symm (ih.2 rfl)
      · rw [stepAt_text_of_several several]
        simpa only [String.append_assoc] using Leads.among here several (ih.2 rfl)

end Xml

theorem pathText_cons (first : PathStep) (rest : List PathStep) :
    pathText (first :: rest) =
      "/" ++ first.text ++ String.join (rest.map fun step => "/" ++ step.text) := by
  induction rest generalizing first with
  | nil => simp [pathText]
  | cons next rest ih =>
    have onward := ih next
    simp only [pathText, List.map_cons, String.join_cons, String.intercalate_cons_cons,
      String.append_assoc] at onward ⊢
    rw [onward]

/-- The path to an element names the root and writes the way from there. -/
theorem Xml.Document.locationPath_eq_iff {document : Document} {address : Address} {tag : Tag}
    {content : List Node} {path : String}
    (found : document.toNode.at? address = some (.element tag content)) :
    path = document.locationPath address ↔ ∃ way, Leads document.toNode address way ∧
      path = "/" ++ document.root.name.localName ++ way := by
  rw [locationPath, pathText_cons]
  simp only [leads_iff found, exists_eq_left]
  rfl

end RelaxDoc
