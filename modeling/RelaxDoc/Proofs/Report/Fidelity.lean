import RelaxDoc.Loader
import RelaxDoc.Proofs.Record.Legality
import RelaxDoc.Proofs.Report.Reception
import RelaxDoc.Proofs.Search.Unfolding

/-! Fidelity of the XML report of a grammar that was loaded. Its strings are those of a document that was
read, so only the text of an entity can bring in a character that no document may have. A reader still gets
other strings where they have tabs and line ends, which references can write. -/
namespace RelaxDoc

open Xml

/-- A run in two steps that gives a value has one that its first step gives. -/
theorem Run.exists_of_bind {α β : Type} {run : Run α} {next : α → Run β} {b : β}
    (both : (run >>= next).result = .ok b) : ∃ a, run.result = .ok a ∧ (next a).result = .ok b := by
  change ((ExceptT.run run >>= ExceptT.bindCont next : Traced (Except Error β))).value = _ at both
  rw [Traced.value_bind] at both
  cases first : (ExceptT.run run).value with
  | error e =>
    rw [first] at both
    cases both
  | ok a =>
    rw [first] at both
    exact ⟨a, first, both⟩

/-- A grammar that was loaded was read from the document that its text writes. -/
theorem Loader.exists_document_of_parse {loader : Loader} {text : String} {g : Grammar}
    (loads : (loader.parse text).result = .ok g) :
    ∃ document, Document.ofText text = .ok document ∧
      Grammar.ofDocument loader.limits document = .ok g := by
  obtain ⟨document, written, checked⟩ := Run.exists_of_bind loads
  obtain ⟨_, -, validated⟩ := Run.exists_of_bind checked
  have read : Document.ofText text = .ok document := by
    change Loader.document text = .ok document at written
    unfold Loader.document at written
    split at written
    · rename_i found
      cases written
      exact found
    · cases written
  refine ⟨document, read, ?_⟩
  split at validated
  · obtain ⟨_, -, said⟩ := Run.exists_of_bind validated
    obtain ⟨_, -, structured⟩ := Run.exists_of_bind said
    obtain ⟨_, -, built⟩ := Run.exists_of_bind structured
    exact built
  · obtain ⟨_, -, built⟩ := Run.exists_of_bind validated
    exact built

/-- The types of attributes below elements are part of the documentation. -/
theorem Documentation.Holds.attributeType {g : Grammar} {p q : String → Prop}
    (holds : (ofGrammar g).Holds p q) {node id : Nat} (element : node ∈ g.elementIndex.nodes)
    (below : id ∈ g.descend node .attr) {type : AttributeType} (given : g.attributeType id = type) :
    type.Holds p q :=
  given ▸ ((holds _ (List.mem_map_of_mem element)).attributes _ (List.mem_map_of_mem below)).type

namespace Report

/-- The report of a grammar that was loaded can be read exactly if it has no illegal characters, as it has
none if the entities that the text of the grammar declares have none. A reader gets the sheet of the
documentation, with line ends as line feeds and with white space in the values of attributes as
spaces; so it gets the strings of the records exactly if there are no tabs and line ends in names of
elements, types and parameters and in listed values, and no carriage returns elsewhere. -/
theorem reception_of_parse {loader : Loader} {text : String} {g : Grammar}
    (loads : (loader.parse text).result = .ok g) (indent : Option Nat) (declaration : Bool) :
    ((∃ document, Document.read (xml indent declaration (.ofGrammar g)) = .ok document) ↔
      (Documentation.ofGrammar g).Holds LegalText LegalText) ∧
    (∃ outline, Outline.ofText text = .ok outline ∧ (LegalEntities outline.entities →
      (Documentation.ofGrammar g).Holds LegalText LegalText)) ∧
    ∀ document, Document.read (xml indent declaration (.ofGrammar g)) = .ok document →
      document.toNode.withoutGaps = (sheet (.ofGrammar g)).received.node ∧
      (document.toNode.withoutGaps = (sheet (.ofGrammar g)).node ↔
        (Documentation.ofGrammar g).Holds IsLine IsUnreturned) := by
  refine ⟨exists_read_xml_iff indent declaration, ?_, fun document read => ?_⟩
  · obtain ⟨document, written, built⟩ := loader.exists_document_of_parse loads
    obtain ⟨outline, outlined, -⟩ := Xml.exists_of_bind written
    refine ⟨outline, outlined, fun legal => Documentation.legal_ofGrammar ?_⟩
    exact Grammar.legal_of_read built (Document.legal_of_ofText outlined legal written)
  · have node := withoutGaps_of_read_xml read
    exact ⟨node, node ▸ received_node_eq_iff⟩

/-- A schema that lists a value with a line feed. -/
def listedText : String :=
  "<element name=\"e\" xmlns=\"http://relaxng.org/ns/structure/1.0\">" ++
    "<attribute name=\"a\"><value>x&#10;y</value></attribute></element>"

theorem isSome_listed : (Loader.parse {} listedText).result.toOption.isSome = true := by decide +kernel

/-- The grammar of `listedText`; its element is at 0, the attribute at 1 and the value at 2. -/
def listed : Grammar := (Loader.parse {} listedText).result.toOption.get isSome_listed

theorem listed_loads : (Loader.parse {} listedText).result = .ok listed := by
  have found : (Loader.parse {} listedText).result.toOption = some listed :=
    (Option.some_get isSome_listed).symm
  cases result : (Loader.parse {} listedText).result with
  | error e =>
    rw [result] at found
    cases found
  | ok g =>
    rw [result] at found
    exact congrArg Except.ok (Option.some.inj found)

theorem listed_arena : listed.elementIndex.nodes = [0] ∧ listed.contentChildren 0 = [1] ∧
    listed.kind 1 = .attr ∧ listed.hasContent 1 = true ∧ listed.contentChildren 1 = [2] ∧
    listed.kind 2 = .value ∧ listed.children 2 = [] ∧ (listed.node 2).content = "x\ny" := by
  decide +kernel

theorem listed_entities : (Outline.ofText listedText).toOption.map Outline.entities = some [] := by
  decide +kernel

/-- Below the attribute there is the value and nothing else. -/
theorem listed_firstBelow? (target : Kind) :
    listed.firstBelow? 1 target = if target = .value then some 2 else none := by
  obtain ⟨-, -, -, -, content, kind, bare, -⟩ := listed_arena
  have found : listed.descend 1 target = if target = .value then [2] else [] := by
    refine (Grammar.exists_unfolds_iff.1 ⟨[], ?_⟩).symm
    rw [content]
    split
    · rename_i same
      exact .hit (kind.trans same.symm) .done
    · rename_i other
      have within : listed.Unfolds target (listed.children 2) [] [] [] := by
        rw [bare]
        exact .done
      refine .enter (fun same => other (same.symm.trans kind)) ?_ ?_ ?_ within .done
      all_goals simp [kind, Kind.isReference]
  rw [Grammar.firstBelow?, found]
  split <;> rfl

theorem listed_type : listed.attributeType 1 = .enumeration [listed.enumValue 2] := by
  obtain ⟨-, -, -, filled, -⟩ := listed_arena
  have source : listed.typeSource 1 = .value 2 := by
    simp [Grammar.typeSource, filled, listed_firstBelow?]
  rw [Grammar.attributeType, source]

/-- The value that the schema lists is one of the strings of the report. -/
theorem listed_not_line : ¬ (Documentation.ofGrammar listed).Holds IsLine IsUnreturned := by
  intro holds
  obtain ⟨nodes, top, attr, -, -, -, -, value⟩ := listed_arena
  have first : 0 ∈ listed.elementIndex.nodes := by rw [nodes]; exact List.mem_singleton_self 0
  have content : 1 ∈ listed.contentChildren 0 := by rw [top]; exact List.mem_singleton_self 1
  have below : 1 ∈ listed.descend 0 .attr := Grammar.mem_descend_iff.2 ⟨attr, .top content⟩
  have type := holds.attributeType first below listed_type
  simp only [AttributeType.Holds, List.forall_mem_singleton, Grammar.enumValue, value] at type
  exact type.1 '\n' (by decide) (by decide)

theorem listed_received : (Loader.parse {} listedText).result = .ok listed ∧
    ∃ document, Document.read (xml none false (.ofGrammar listed)) = .ok document ∧
      document.toNode.withoutGaps = (sheet (.ofGrammar listed)).received.node ∧
      document.toNode.withoutGaps ≠ (sheet (.ofGrammar listed)).node := by
  obtain ⟨readable, ⟨outline, outlined, legal⟩, reads⟩ :=
    reception_of_parse listed_loads none false
  have entities : outline.entities = [] := by
    have known := listed_entities
    rw [outlined] at known
    exact Option.some.inj known
  obtain ⟨document, read⟩ := readable.2 (legal (entities ▸ nofun))
  obtain ⟨node, same⟩ := reads document read
  exact ⟨listed_loads, document, read, node, fun eq => listed_not_line (same.1 eq)⟩

/-- A reader of the report may get other strings than those of the records. -/
theorem exists_not_received : ¬ ∀ (loader : Loader) (text : String) (g : Grammar),
    (loader.parse text).result = .ok g → ∀ (indent : Option Nat) (declaration : Bool),
      ∃ document, Document.read (xml indent declaration (.ofGrammar g)) = .ok document ∧
        document.toNode.withoutGaps = (sheet (.ofGrammar g)).node := by
  intro always
  obtain ⟨document, read, same⟩ := always {} listedText listed listed_loads none false
  rw [withoutGaps_of_read_xml read] at same
  exact listed_not_line (received_node_eq_iff.1 same)

end Report

end RelaxDoc
