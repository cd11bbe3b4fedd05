import RelaxDoc.Proofs.Grammar.Paths
import RelaxDoc.Proofs.Structure.Verdict

/-! Location paths of the check and of the grammar. The check counts the elements of one name among
all elements around, the grammar counts the children of one kind among those it keeps; for a kept
element both come to the same path. -/
namespace RelaxDoc

open Xml (Address)

theorem Site.count_elementNames (kind : Kind) (nodes : List Xml.Node) :
    (Site.elementNames nodes).count kind.xmlName = (nodes.filterMap Kind.ofNode?).count kind := by
  induction nodes with
  | nil => rfl
  | cons node rest ih =>
    cases node with
    | element tag children =>
      have names : Site.elementNames (.element tag children :: rest) =
        tag.name :: Site.elementNames rest := rfl
      rw [names, List.count_cons, ih, List.filterMap_cons]
      by_cases same : tag.name = kind.xmlName
      · have known : Kind.ofNode? (.element tag children) = some kind :=
          Kind.ofName?_eq_some_iff.2 same
        simp [known, same]
      · have other : Kind.ofNode? (.element tag children) ≠ some kind :=
          same ∘ Kind.ofName?_eq_some_iff.1
        cases known : Kind.ofNode? (.element tag children) with
        | none => simp [same]
        | some found =>
          have differ : found ≠ kind := fun equal => other (known.trans (congrArg some equal))
          simp [same, differ]
    | text | comment | instruction => exact ih

/-- The steps to an element are those to the element around it and the one from there. -/
theorem Xml.Node.stepsTo_concat {root outer : Xml.Node} {around : Address} {step : Nat}
    {tag : Xml.Tag} {children : List Xml.Node} (above : root.at? around = some outer)
    (inside : outer.children[step]? = some (.element tag children)) :
    root.stepsTo (around ++ [step]) =
      root.stepsTo around ++ [Xml.stepAt outer.children step tag.name] := by
  induction around generalizing root with
  | nil =>
    cases above
    simp [stepsTo, inside, tag?]
  | cons index rest ih =>
    obtain ⟨child, here, above⟩ := Xml.Node.at?_cons.1 above
    rw [List.cons_append, stepsTo, stepsTo, here]
    simp only [ih above, List.append_assoc]

namespace Arena

variable {a : Arena} {outer id : Nat} {front back : List Nat}

theorem length_filter_kind (a : Arena) (kind : Kind) (ids : List Nat) :
    (ids.filter fun id => a.kind id = kind).length = (ids.map a.kind).count kind := by
  rw [← List.countP_eq_length_filter, List.count, List.countP_map]
  rfl

theorem length_sameKind (a : Arena) (outer id : Nat) :
    (a.sameKind outer id).length = ((a.children outer).map a.kind).count (a.kind id) :=
  a.length_filter_kind (a.kind id) (a.children outer)

/-- The position of a child in its kind is the number of children of the kind before it. -/
theorem idxOf_sameKind (split : a.children outer = front ++ id :: back) :
    (a.sameKind outer id).idxOf id = (front.map a.kind).count (a.kind id) := by
  have nodup := a.children_nodup outer
  rw [split] at nodup
  have fresh : id ∉ front.filter fun child => a.kind child = a.kind id := fun member =>
    (List.nodup_append.1 nodup).2.2 _ (List.mem_filter.1 member).1 _ (List.mem_cons_self ..) rfl
  rw [sameKind, split, List.filter_append, List.filter_cons_of_pos (by simp),
    List.idxOf_append_of_notMem fresh, List.idxOf_cons_self, Nat.add_zero, a.length_filter_kind]

end Arena

namespace Grammar

variable {g : Grammar} {limits : Limits} {document : Xml.Document}

section Steps

variable {root around : Xml.Node} {addresses : List Address} {outer id step : Nat}
  {address : Address}

/-- The steps of the two from an element to a kept one in it are the same. -/
theorem Enumerates.stepAt_eq_stepTo (enumerates : g.Enumerates root addresses) (loaded : g.Loaded)
    (above : addresses[outer]? = some address) (reached : root.at? address = some around)
    (looked : around.LookedInto) {tag : Xml.Tag} {children : List Xml.Node}
    (found : addresses[id]? = some (address ++ [step]))
    (inside : around.children[step]? = some (.element tag children)) :
    Xml.stepAt around.children step tag.name = g.stepTo outer id := by
  have below := Xml.Node.at?_concat_iff.2 ⟨around, reached, inside⟩
  have known : Kind.ofName? tag.name = some (g.kind id) := enumerates.kind_eq found below
  have name := Kind.ofName?_eq_some_iff.1 known
  obtain ⟨back, split⟩ := exists_keptSteps_append (mem_keptSteps.2 ⟨_, _, inside, known⟩)
  have listed := enumerates.children_eq loaded above reached looked
  rw [split, List.map_append, List.map_cons, enumerates.idxOf_eq found] at listed
  -- The kinds of the nodes before the child are those of the elements before its element.
  have before := enumerates.kinds_of_prefix above reached looked (List.take_prefix step _)
  have level : (g.sameKind outer id).length =
      (Site.elementNames around.children).count tag.name := by
    rw [g.length_sameKind, enumerates.children_kinds loaded above reached looked, name,
      Site.count_elementNames]
  have index : (g.sameKind outer id).idxOf id =
      (Site.elementNames (around.children.take step)).count tag.name := by
    rw [Arena.idxOf_sameKind listed, List.map_map, name, Site.count_elementNames, ← before]
    rfl
  rw [Xml.stepAt, Arena.stepTo, index, level, name]
  rfl

/-- The steps to a kept element are those to its node. -/
theorem steps_eq (read : ofDocument limits document = .ok g)
    (found : (keptAddresses document.toNode)[id]? = some address) :
    ⟨document.root.name.localName, none⟩ :: document.toNode.stepsTo address = g.steps id := by
  have enumerates := enumerates_of_read read
  have loaded : g.Loaded := ⟨limits, document, read⟩
  -- The last step of an address is the step from the parent of the node.
  induction address using List.reverseRecOn generalizing id with
  | nil =>
    have known : Kind.ofName? document.root.name = some (g.kind id) := enumerates.kind_eq found rfl
    rw [Arena.steps_of_orphan (enumerates.parent?_of_nil found), Kind.ofName?_eq_some_iff.1 known]
    rfl
  | append_singleton rest step ih =>
    obtain ⟨outer, above, there⟩ := enumerates.parent id rest step found
    obtain ⟨tag, children, reached, _⟩ := enumerates.depicts id _ found
    obtain ⟨around, here, looked⟩ := (enumerates.retained found).2 rest (List.prefix_append ..)
      (by simp)
    obtain ⟨again, same, inside⟩ := Xml.Node.at?_concat_iff.1 reached
    cases here.symm.trans same
    rw [Arena.steps_of_parent above, ← ih there, Xml.Node.stepsTo_concat here inside,
      enumerates.stepAt_eq_stepTo loaded there here looked found inside]
    rfl

end Steps

/-- The check gives every kept element of a document the path of its node in the grammar that the
document is read as. So if it ends at a kept element, it names the path of the node. -/
theorem path_eq_of_located (read : ofDocument limits document = .ok g) :
    ∃ addresses, g.Enumerates document.toNode addresses ∧
      (∀ id address, addresses[id]? = some address →
        (∃ site, (address, site) ∈ Site.located document) ∧
        ∀ site, (address, site) ∈ Site.located document →
          document.toNode.at? address = some (.element site.tag site.children) ∧
            site.path = g.path id) ∧
      ∀ violation,
        (checkStructure document = .error violation ↔ ∃ address, EndsAt document address violation) ∧
        ∀ address, EndsAt document address violation →
          ∀ id, addresses[id]? = some address → violation.path = some (g.path id) := by
  have enumerates := enumerates_of_read read
  have agree {id : Nat} {address : Address} {site : Site}
      (found : (keptAddresses document.toNode)[id]? = some address)
      (located : (address, site) ∈ Site.located document) : site.path = g.path id := by
    rw [Site.path, (Site.stands_of_located located).path]
    exact congrArg pathText (steps_eq read found)
  refine ⟨_, enumerates, fun id address found => ⟨?_, fun site located => ?_⟩,
    fun violation => ⟨checkStructure_eq_error_iff_endsAt, fun address ends id found => ?_⟩⟩
  · obtain ⟨tag, children, reached, _⟩ := enumerates.depicts id address found
    obtain ⟨site, located, _⟩ := Site.exists_located reached
    exact ⟨site, located⟩
  · exact ⟨(Site.stands_of_located located).found, agree found located⟩
  · obtain ⟨site, located, broken, _⟩ := ends
    obtain ⟨_, breach, _, rfl⟩ := Site.violation?_eq_some_iff.1 broken
    exact congrArg some (agree found located)

/-- Two definitions behind documentation and a foreign element of the same local name. In the second
one is a reference without a name. -/
def brokenDocument : Xml.Document := .ofContent
  [.element ⟨⟨some Namespace.compatibility, "documentation"⟩, [], []⟩ [.text "parts"],
   .element ⟨⟨some "urn:notes", "define"⟩, [], []⟩ [],
   .pattern .define "a" [.pattern .empty none []],
   .pattern .define "b" [.pattern .ref none []]]

/-- The check of `brokenDocument` ends at the node at 5. -/
theorem path_of_broken_reference : ∃ g addresses address violation,
    ofDocument .standard brokenDocument = .ok g ∧ g.Enumerates brokenDocument.toNode addresses ∧
      addresses[5]? = some address ∧ EndsAt brokenDocument address violation ∧
      violation.path = some "/grammar/define[2]/ref" ∧ violation.path = some (g.path 5) := by
  have read : ofDocument .standard brokenDocument = .ok (ofKept brokenDocument rfl) :=
    ofDocument_eq_ok_iff.2 ⟨rfl, rfl, _, rfl, rfl⟩
  obtain ⟨addresses, enumerates, -, ends⟩ := path_eq_of_located read
  have listed : addresses = keptAddresses brokenDocument.toNode :=
    eq_keptAddresses enumerates.sorted enumerates.mem_iff
  have found : addresses[5]? = some [3, 0] := by rw [listed]; decide +kernel
  have last : EndsAt brokenDocument [3, 0]
      ((Breach.missing "ref" "name").violation "/grammar/define[2]/ref") := by
    refine ⟨_, List.mem_of_getElem? (show (Site.located brokenDocument)[6]? = _ from rfl), rfl, ?_⟩
    have earlier : ∀ located ∈ Site.located brokenDocument, located.1 < [3, 0] →
        located.2.violation? = none := by decide +kernel
    exact fun address site located => earlier (address, site) located
  exact ⟨_, addresses, _, _, read, enumerates, found, last, rfl, (ends _).2 _ last 5 found⟩

end Grammar

end RelaxDoc
