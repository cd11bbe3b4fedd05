import RelaxDoc.Proofs.Grammar.Addresses
import RelaxDoc.Proofs.Structure.Rules
import Mathlib.Data.List.Induction

/-! The elements that the check looks at. They are all the elements of a document, each with the
element around it: those that a grammar keeps, and those that it skips. -/
namespace RelaxDoc

open Xml (Address)

namespace Site

variable {root node : Xml.Node} {nodes children : List Xml.Node} {address : Address} {step : Nat}
  {tag : Xml.Tag}

theorem ofNode_of_not_element (parent : Option Xml.Name) (steps : List PathStep)
    (other : node.tag? = none) : ofNode parent steps node = [] := by
  cases node with
  | element tag children => cases other
  | text | comment | instruction => rfl

/-- The elements of a node are among those of the nodes it stands in. -/
theorem subset_ofNodes (parent : Option Xml.Name) (steps : List PathStep)
    (level before : List Xml.Name) {step : Nat} (found : nodes[step]? = some node) : ∃ further,
    ofNode parent further node ⊆ ofNodes parent steps level before nodes := by
  induction nodes generalizing step before with
  | nil => cases found
  | cons head rest ih =>
    unfold ofNodes
    cases step with
    | zero =>
      cases found
      cases element : node.tag? with
      | none =>
        refine ⟨steps, ?_⟩
        rw [ofNode_of_not_element parent steps element]
        exact List.nil_subset _
      | some tag => exact ⟨_, List.subset_append_left ..⟩
    | succ step =>
      obtain ⟨further, among⟩ := ih (before ++ elementNames [head]) found
      exact ⟨further, List.subset_append_of_subset_right _ among⟩

theorem subset_ofNode (parent : Option Xml.Name) (steps : List PathStep) (tag : Xml.Tag)
    (found : children[step]? = some node) : ∃ further,
    ofNode (some tag.name) further node ⊆ ofNode parent steps (.element tag children) := by
  obtain ⟨further, among⟩ :=
    subset_ofNodes (some tag.name) steps (elementNames children) [] found
  exact ⟨further, List.subset_cons_of_subset _ among⟩

theorem exists_subset (found : root.at? address = some node) (parent : Option Xml.Name)
    (steps : List PathStep) :
    ∃ around further, ofNode around further node ⊆ ofNode parent steps root := by
  induction address using List.reverseRecOn generalizing node with
  | nil =>
    cases found
    exact ⟨parent, steps, List.Subset.refl _⟩
  | append_singleton rest step ih =>
    obtain ⟨outer, reached, child⟩ := Xml.Node.at?_concat_iff.1 found
    obtain ⟨around, further, among⟩ := ih reached
    cases outer with
    | element tag children =>
      obtain ⟨last, within⟩ := subset_ofNode around further _ child
      exact ⟨some tag.name, last, List.Subset.trans within among⟩
    | text | comment | instruction => simp [Xml.Node.children] at child

/-- Every element of a document is looked at, with the name of the element around it. -/
theorem exists_of_at? (found : root.at? (address ++ [step]) = some (.element tag children))
    (parent : Option Xml.Name) (steps : List PathStep) :
    ∃ outer content, root.at? address = some (.element outer content) ∧
      ∃ further, ⟨tag, children, some outer.name, further⟩ ∈ ofNode parent steps root := by
  obtain ⟨node, reached, child⟩ := Xml.Node.at?_concat_iff.1 found
  cases node with
  | element outer content =>
    obtain ⟨around, further, among⟩ := exists_subset reached parent steps
    obtain ⟨last, within⟩ := subset_ofNode around further _ child
    exact ⟨outer, content, reached, last, among (within (List.mem_cons_self ..))⟩
  | text | comment | instruction => simp [Xml.Node.children] at child

mutual

/-- What is skipped is an element of no known kind, and is looked at by the check. -/
theorem exists_of_skipped {name : Xml.Name} (depth : Nat) (parent : Option Xml.Name)
    (steps : List PathStep) (node : Xml.Node) (met : .skipped name ∈ Visit.ofNode depth node) :
    ∃ site ∈ ofNode parent steps node, site.tag.name = name ∧ Kind.ofName? name = none := by
  match node with
  | .element tag children =>
    unfold Visit.ofNode at met
    split at met
    · rename_i unknown
      cases List.mem_singleton.1 met
      exact ⟨_, List.mem_cons_self .., rfl, unknown⟩
    · rcases List.mem_cons.1 met with here | deeper
      · cases here
      · split at deeper
        · cases deeper
        · obtain ⟨site, among, same⟩ := exists_of_skipped_ofNodes (depth + 1) (some tag.name)
            steps (elementNames children) [] children deeper
          exact ⟨site, List.mem_cons_of_mem _ among, same⟩
  | .text _ | .comment _ | .instruction _ _ => cases met

theorem exists_of_skipped_ofNodes {name : Xml.Name} (depth : Nat) (parent : Option Xml.Name)
    (steps : List PathStep) (level before : List Xml.Name) (nodes : List Xml.Node)
    (met : .skipped name ∈ Visit.ofNodes depth nodes) :
    ∃ site ∈ ofNodes parent steps level before nodes,
      site.tag.name = name ∧ Kind.ofName? name = none := by
  match nodes with
  | [] => cases met
  | node :: rest =>
    unfold Visit.ofNodes at met
    unfold ofNodes
    rcases List.mem_append.1 met with here | later
    · cases element : node.tag? with
      | none =>
        cases node with
        | element tag children => cases element
        | text | comment | instruction => cases here
      | some tag =>
        obtain ⟨site, among, same⟩ := exists_of_skipped depth parent
          (steps ++ [stepTo tag.name before level]) node here
        exact ⟨site, List.mem_append_left _ among, same⟩
    · obtain ⟨site, among, same⟩ := exists_of_skipped_ofNodes depth parent steps level
        (before ++ elementNames [node]) rest later
      exact ⟨site, List.mem_append_right _ among, same⟩

end

end Site

end RelaxDoc
