import RelaxDoc.Proofs.Structure.Agreement
import RelaxDoc.Proofs.Xml.Tags

/-! Elements that the check gives one path. A step of a path is written with a local name, but its number
counts the elements of the same expanded name. So the elements of one namespace are told apart, and two
elements have one path exactly if they are in or at siblings of one local name in different namespaces
that the numbers do not tell apart. -/
namespace RelaxDoc

open Xml (Address)

namespace PathStep

variable {steps others : List PathStep}

/-- A label made of characters of names ends before what is written behind it. -/
theorem IsPlain.of_nameChars {step : PathStep}
    (named : ∀ c ∈ step.label.toList, Xml.isNameChar c = true) : step.IsPlain where
  slash member := absurd (named '/' member) (by decide)
  bracket member := absurd (named '[' member) (by decide)

/-- Paths are written alike only if their steps are the same. -/
theorem pathText_eq_iff (filled : steps ≠ []) (more : others ≠ [])
    (plain : ∀ step ∈ steps, step.IsPlain) (plain' : ∀ step ∈ others, step.IsPlain) :
    pathText steps = pathText others ↔ steps = others := by
  refine ⟨fun same => ?_, congrArg pathText⟩
  have first := read?_pathText filled plain
  rw [same, read?_pathText more plain'] at first
  exact (Option.some.inj first).symm

end PathStep

namespace Xml

variable {node : Node} {nodes content : List Node} {tag one other : Tag} {index position : Nat}
  {address further : Address}

/-- Two addresses in a node that part at elements in different namespaces: the same step leads to both
elements, and the same steps lead on from them. -/
inductive Namesakes : Node → Address → Address → Prop where
  | part {node : Node} {index position : Nat} {one other : Tag} {content inside : List Node}
    {below beyond : Address} (here : node.children[index]? = some (.element one content))
    (there : node.children[position]? = some (.element other inside))
    (apart : one.name.uri ≠ other.name.uri)
    (step : stepAt node.children index one.name = stepAt node.children position other.name)
    (onward : (Node.element one content).stepsTo below = (Node.element other inside).stepsTo beyond) :
    Namesakes node (index :: below) (position :: beyond)
  | within {node child : Node} {index : Nat} {address further : Address}
    (here : node.children[index]? = some child) (inside : Namesakes child address further) :
    Namesakes node (index :: address) (index :: further)

/-- An element and all elements around it are structural. -/
def Node.AllStructural (root : Node) (address : Address) : Prop :=
  ∀ around tag children, around <+: address → root.at? around = some (.element tag children) →
    isStructural tag.name = true

section Siblings

/-- An element is one of those of its name in front of what is behind it. -/
theorem count_elementNames_lt (here : nodes[index]? = some (.element tag content))
    (before : index < position) :
    (Site.elementNames (nodes.take index)).count tag.name <
      (Site.elementNames (nodes.take position)).count tag.name := by
  have here : (nodes.take position)[index]? = some (.element tag content) := by
    rw [List.getElem?_take_of_lt before, here]
  obtain ⟨back, split, -⟩ := exists_modify_eq here
  rw [List.take_take, Nat.min_eq_left (Nat.le_of_lt before)] at split
  have names : Site.elementNames (.element tag content :: back) =
    tag.name :: Site.elementNames back := rfl
  rw [split, Site.elementNames_append, names, List.count_append, List.count_cons_self]
  omega

/-- Elements of one name in one node are reached by different steps. -/
theorem stepAt_ne_of_lt {inside : List Node} (here : nodes[index]? = some (.element one content))
    (there : nodes[position]? = some (.element other inside)) (before : index < position)
    (name : other.name = one.name) :
    stepAt nodes index one.name ≠ stepAt nodes position one.name := by
  have less := count_elementNames_lt here before
  have last := count_elementNames_lt there (List.getElem?_eq_some_iff.1 there).1
  rw [name, List.take_length] at last
  have several : (Site.elementNames nodes).count one.name > 1 := by omega
  intro same
  rw [stepAt, stepAt, PathStep.among, PathStep.among, if_pos several, if_pos several] at same
  have number := Option.some.inj (congrArg PathStep.position same)
  omega

/-- One step leads to different elements of a node only if they are in different namespaces. -/
theorem uri_ne_of_stepAt_eq {inside : List Node}
    (here : nodes[index]? = some (.element one content))
    (there : nodes[position]? = some (.element other inside)) (differ : index ≠ position)
    (same : stepAt nodes index one.name = stepAt nodes position other.name) :
    one.name.uri ≠ other.name.uri := by
  intro uri
  have label : one.name.localName = other.name.localName := congrArg PathStep.label same
  have name : one.name = other.name :=
    calc one.name = ⟨other.name.uri, other.name.localName⟩ := by rw [← uri, ← label]
      _ = other.name := rfl
  rw [← name] at same
  rcases Nat.lt_or_gt_of_ne differ with before | behind
  · exact stepAt_ne_of_lt here there before name.symm same
  · rw [name] at same
    exact stepAt_ne_of_lt there here behind name same.symm

end Siblings

section Steps

theorem Namesakes.stepsTo_eq (same : Namesakes node address further) :
    node.stepsTo address = node.stepsTo further := by
  induction same with
  | part here there apart step onward =>
    rw [Node.stepsTo_cons here, Node.stepsTo_cons there, step, onward]
  | within here inside ih =>
    rw [Node.stepsTo, Node.stepsTo, here]
    simp only [ih]

/-- Steps from a node lead to one element, but for namesakes. -/
theorem Node.stepsTo_eq_iff {inside : List Node}
    (found : node.at? address = some (.element one content))
    (found' : node.at? further = some (.element other inside)) (differ : address ≠ further) :
    node.stepsTo address = node.stepsTo further ↔ Namesakes node address further := by
  refine ⟨fun same => ?_, Namesakes.stepsTo_eq⟩
  induction address generalizing node further with
  | nil =>
    cases further with
    | nil => exact absurd rfl differ
    | cons position beyond =>
      obtain ⟨_, _, there, _⟩ := Node.exists_first_of_at? found'
      rw [Node.stepsTo_cons there] at same
      cases same
  | cons index below ih =>
    obtain ⟨first, within, here, found⟩ := Node.exists_first_of_at? found
    rw [Node.stepsTo_cons here] at same
    cases further with
    | nil => cases same
    | cons position beyond =>
      obtain ⟨second, without, there, found'⟩ := Node.exists_first_of_at? found'
      rw [Node.stepsTo_cons there, List.cons.injEq] at same
      -- The addresses part here, or further on in one child.
      by_cases sibling : index = position
      · subst sibling
        cases here.symm.trans there
        exact .within here (ih found found' (fun equal => differ (equal ▸ rfl)) same.2)
      · exact .part here there (uri_ne_of_stepAt_eq here there sibling same.1) same.1 same.2

theorem Node.isPlain_of_mem_stepsTo (named : node.HasTags Tag.Named) {step : PathStep}
    (member : step ∈ node.stepsTo address) : step.IsPlain := by
  induction address generalizing node with
  | nil => cases member
  | cons index rest ih =>
    rw [Node.stepsTo] at member
    split at member
    · rename_i child here
      rcases List.mem_append.1 member with first | later
      · cases child with
        | element tag children =>
          have proper := named [index] tag children (Node.at?_cons.2 ⟨_, here, rfl⟩)
          rw [List.mem_singleton.1 (show step ∈ [stepAt node.children index tag.name] from first)]
          exact .of_nameChars proper
        | text | comment | instruction => cases first
      · exact ih (fun address tag children found =>
          named (index :: address) tag children (Node.at?_cons.2 ⟨child, here, found⟩)) later
    · cases member

/-- Of two namesakes, one is foreign or in a foreign element. -/
theorem Namesakes.not_allStructural (same : Namesakes node address further)
    (structural : node.AllStructural address) : ¬ node.AllStructural further := by
  induction same with
  | @part node index position one other content inside below beyond here there apart =>
    intro structural'
    have first := structural [index] one content ⟨below, rfl⟩ (Node.at?_cons.2 ⟨_, here, rfl⟩)
    have second := structural' [position] other inside ⟨beyond, rfl⟩
      (Node.at?_cons.2 ⟨_, there, rfl⟩)
    exact apart ((of_decide_eq_true first).trans (of_decide_eq_true second).symm)
  | @within node child index address further here inside ih =>
    have below {address : Address} (structural : node.AllStructural (index :: address)) :
        child.AllStructural address := fun around tag children leading found =>
      structural (index :: around) tag children (List.cons_prefix_cons.2 ⟨rfl, leading⟩)
        (Node.at?_cons.2 ⟨child, here, found⟩)
    exact fun structural' => ih (below structural) (below structural')

end Steps

end Xml

variable {document : Xml.Document}

/-- In a document with proper names, two elements have one path exactly if they are namesakes. -/
theorem Site.path_eq_iff (named : document.toNode.HasTags Xml.Tag.Named)
    {address further : Address} {site twin : Site} (here : (address, site) ∈ Site.located document)
    (there : (further, twin) ∈ Site.located document) (differ : address ≠ further) :
    site.path = twin.path ↔ Xml.Namesakes document.toNode address further := by
  have stands := Site.stands_of_located here
  have stands' := Site.stands_of_located there
  have plain (address : Address) : ∀ step ∈ ⟨document.root.name.localName, none⟩ ::
      document.toNode.stepsTo address, step.IsPlain := by
    refine List.forall_mem_cons.2 ⟨?_, fun step => Xml.Node.isPlain_of_mem_stepsTo named⟩
    exact .of_nameChars (named [] document.root document.children rfl)
  rw [Site.path, Site.path, stands.path, stands'.path, List.singleton_append,
    List.singleton_append, PathStep.pathText_eq_iff (List.cons_ne_nil _ _) (List.cons_ne_nil _ _)
      (plain address) (plain further), List.cons.injEq, and_iff_right rfl]
  exact Xml.Node.stepsTo_eq_iff stands.found stands'.found differ

/-- In a document with proper names, as any has that is written, the path of an element leads to it, and
besides only to its namesakes. No two elements with structural elements around them only are namesakes.
So the path of a violation leads to the element that the check ends at, or to a namesake of it. -/
theorem path_eq_iff_namesakes (named : document.toNode.HasTags Xml.Tag.Named) :
    (∀ address site further twin, (address, site) ∈ Site.located document →
      (further, twin) ∈ Site.located document → address ≠ further →
        (site.path = twin.path ↔ Xml.Namesakes document.toNode address further) ∧
        (document.toNode.AllStructural address → document.toNode.AllStructural further →
          site.path ≠ twin.path)) ∧
    ∀ violation, checkStructure document = .error violation →
      ∃ address site, EndsAt document address violation ∧
        (address, site) ∈ Site.located document ∧ violation.path = some site.path ∧
        ∀ further twin, (further, twin) ∈ Site.located document → twin.path = site.path →
          further = address ∨ Xml.Namesakes document.toNode address further := by
  refine ⟨fun address site further twin here there differ => ?_, fun violation refused => ?_⟩
  · have alike := Site.path_eq_iff named here there differ
    exact ⟨alike, fun structural structural' same =>
      (alike.1 same).not_allStructural structural structural'⟩
  · obtain ⟨address, ends⟩ := checkStructure_eq_error_iff_endsAt.1 refused
    have ⟨site, here, broken, _⟩ := ends
    obtain ⟨-, breach, -, rfl⟩ := Site.violation?_eq_some_iff.1 broken
    refine ⟨address, site, ends, here, rfl, fun further twin there same => ?_⟩
    by_cases equal : further = address
    · exact .inl equal
    · exact .inr ((Site.path_eq_iff named here there (Ne.symm equal)).1 same.symm)

/-- A schema with a reference in each of two foreign elements of one local name in different namespaces.
The second one has no name. -/
def namesakesText : String :=
  "<grammar xmlns=\"http://relaxng.org/ns/structure/1.0\"><a:note xmlns:a=\"urn:a\"><ref name=\"x\"/>" ++
  "</a:note><b:note xmlns:b=\"urn:b\"><ref/></b:note></grammar>"

theorem namesakes_facts : ((Xml.Document.ofText namesakesText).toOption.map fun document => decide (
    checkStructure document = .error ((Breach.missing "ref" "name").violation "/grammar/note/ref") ∧
    ((Site.located document).map fun found =>
        (found.1, isStructural found.2.tag.name, found.2.path)) =
      [([], true, "/grammar"), ([0], false, "/grammar/note"), ([0, 0], true, "/grammar/note/ref"),
        ([1], false, "/grammar/note"), ([1, 0], true, "/grammar/note/ref")])) = some true := by
  decide +kernel

theorem exists_notes : ∃ document site twin, Xml.Document.ofText namesakesText = .ok document ∧
    checkStructure document = .error ((Breach.missing "ref" "name").violation "/grammar/note/ref") ∧
    (([0, 0], site) ∈ Site.located document ∧ isStructural site.tag.name = true ∧
      site.path = "/grammar/note/ref") ∧
    ([1, 0], twin) ∈ Site.located document ∧ isStructural twin.tag.name = true ∧
      twin.path = "/grammar/note/ref" := by
  obtain ⟨document, read, facts⟩ := Option.map_eq_some_iff.1 namesakes_facts
  have written : Xml.Document.ofText namesakesText = .ok document := by
    cases read' : Xml.Document.ofText namesakesText <;> rw [read'] at read <;> cases read
    rfl
  obtain ⟨refused, listed⟩ := of_decide_eq_true facts
  have found (entry : Address × Bool × String) (member : entry ∈ [([], true, "/grammar"),
      ([0], false, "/grammar/note"), ([0, 0], true, "/grammar/note/ref"),
      ([1], false, "/grammar/note"), ([1, 0], true, "/grammar/note/ref")]) :
      ∃ site, (entry.1, site) ∈ Site.located document ∧ isStructural site.tag.name = entry.2.1 ∧
        site.path = entry.2.2 := by
    rw [← listed] at member
    obtain ⟨⟨address, site⟩, located, rfl⟩ := List.mem_map.1 member
    exact ⟨site, located, rfl, rfl⟩
  obtain ⟨site, here⟩ := found ([0, 0], true, "/grammar/note/ref") (by simp)
  obtain ⟨twin, there⟩ := found ([1, 0], true, "/grammar/note/ref") (by simp)
  exact ⟨document, site, twin, written, refused, here, there⟩

/-- The check ends at the reference without a name, but the path that it gives is that of the other one
too. -/
theorem namesakes_in_notes : ∃ document address violation,
    Xml.Document.ofText namesakesText = .ok document ∧ checkStructure document = .error violation ∧
      EndsAt document address violation ∧ violation.path = some "/grammar/note/ref" ∧
      Xml.Namesakes document.toNode [0, 0] [1, 0] := by
  obtain ⟨document, site, twin, written, refused, ⟨here, -, path⟩, there, -, path'⟩ := exists_notes
  obtain ⟨alike, violated⟩ := path_eq_iff_namesakes (Xml.Document.named_of_ofText written)
  obtain ⟨address, _, ends, _⟩ := violated _ refused
  have namesakes := (alike _ _ _ _ here there (by decide)).1.1 (path.trans path'.symm)
  exact ⟨document, address, _, written, refused, ends, rfl, namesakes⟩

/-- Two structural elements may have one path. -/
theorem exists_path_shared : ¬ ∀ (text : String) (document : Xml.Document),
    Xml.Document.ofText text = .ok document → ∀ address site further twin,
      (address, site) ∈ Site.located document → (further, twin) ∈ Site.located document →
        isStructural site.tag.name = true → isStructural twin.tag.name = true →
          address ≠ further → site.path ≠ twin.path := by
  intro never
  obtain ⟨document, site, twin, written, -, ⟨here, structural, path⟩, there, structural', path'⟩ :=
    exists_notes
  exact never _ _ written _ _ _ _ here there structural structural' (by decide)
    (path.trans path'.symm)

end RelaxDoc
