import RelaxDoc.Proofs.Grammar.Kinship
import RelaxDoc.Proofs.Structure.Requirements
import RelaxDoc.Proofs.Structure.Ways

/-! The verdict of the check, in words of the document: it passes exactly if all structural elements
have what is asked of their kinds, and otherwise it names the first of those that do not. -/
namespace RelaxDoc

open Xml (Address)

variable {root : Xml.Node} {address : Address} {tag : Xml.Tag} {children : List Xml.Node}

namespace Site

variable {site : Site}

theorem violation?_eq_some_iff {violation : Violation} : site.violation? = some violation ↔
    isStructural site.tag.name = true ∧
      ∃ breach, site.breach? = some breach ∧ violation = breach.violation site.path := by
  unfold violation?
  cases isStructural site.tag.name <;> simp [eq_comm]

/-- What is found first among sites is found at the first position that it is found at, if the
positions of the sites are in order. -/
theorem findSome?_eq_some_iff_of_sorted {positions : List Address} {sites : List Site}
    {find : Site → Option Violation} {violation : Violation}
    (sorted : positions.Pairwise (· < ·)) (paired : positions.length = sites.length) :
    sites.findSome? find = some violation ↔ ∃ address site, (address, site) ∈ positions.zip sites ∧
      find site = some violation ∧ ∀ earlier other, (earlier, other) ∈ positions.zip sites →
        earlier < address → find other = none := by
  induction positions generalizing sites with
  | nil =>
    cases List.length_eq_zero_iff.1 paired.symm
    simp
  | cons first later ih =>
    obtain _ | ⟨site, rest⟩ := sites
    · cases paired
    obtain ⟨before, sorted⟩ := List.pairwise_cons.1 sorted
    have behind {address : Address} {other : Site} (member : (address, other) ∈ later.zip rest) :
        first < address := before address (List.of_mem_zip member).1
    have ih := ih sorted (Nat.succ.inj paired)
    rw [List.findSome?_cons, List.zip_cons_cons]
    simp only [List.mem_cons]
    cases here : find site with
    | some found =>
      constructor
      · intro found
        cases found
        refine ⟨first, site, .inl rfl, here, ?_⟩
        rintro earlier other (same | member) less
        · cases same
          exact absurd less (List.lt_irrefl _)
        · exact absurd (List.lt_trans less (behind member)) (List.lt_irrefl _)
      · rintro ⟨address, other, same | member, found', none⟩
        · cases same
          exact here.symm.trans found'
        · have := none first site (.inl rfl) (behind member)
          simp [here] at this
    | none =>
      rw [ih]
      constructor
      · rintro ⟨address, other, member, found, none⟩
        refine ⟨address, other, .inr member, found, ?_⟩
        rintro earlier another (same | among) less
        · cases same
          exact here
        · exact none earlier another among less
      · rintro ⟨address, other, same | member, found, none⟩
        · cases same
          cases here.symm.trans found
        · exact ⟨address, other, member, found, fun earlier another among =>
            none earlier another (.inr among)⟩

end Site

/-- An element in the structural namespace, anywhere in a document. -/
structure StructuralAt (document : Xml.Document) (address : Address) (tag : Xml.Tag)
    (children : List Xml.Node) : Prop where
  found : document.toNode.at? address = some (.element tag children)
  structural : isStructural tag.name = true

section Document

variable {document : Xml.Document} {site : Site}

/-- The elements of a document with their addresses, as the check comes to them. -/
def Site.located (document : Xml.Document) : List (Address × Site) :=
  document.toNode.elementAddresses.zip (Site.all document)

theorem Site.forall₂_all (document : Xml.Document) :
    List.Forall₂ (Site.Stands document.toNode none [⟨document.root.name.localName, none⟩])
      document.toNode.elementAddresses (Site.all document) :=
  Site.forall₂_ofNode none _ document.toNode

theorem Site.stands_of_located (located : (address, site) ∈ Site.located document) :
    site.Stands document.toNode none [⟨document.root.name.localName, none⟩] address :=
  List.forall₂_zip (Site.forall₂_all document) located

theorem Site.exists_address (member : site ∈ Site.all document) :
    ∃ address, (address, site) ∈ Site.located document := by
  rw [← List.map_snd_zip (Site.forall₂_all document).length_eq.ge] at member
  obtain ⟨⟨address, _⟩, located, rfl⟩ := List.mem_map.1 member
  exact ⟨address, located⟩

/-- The path that the check gives an element is the one to its address. -/
theorem Site.Stands.locationPath
    (stands : site.Stands document.toNode none [⟨document.root.name.localName, none⟩] address) :
    site.path = document.locationPath address := by
  rw [Site.path, stands.path]
  rfl

/-- An element of a document is one of those that the check comes to. -/
theorem Site.exists_located (found : document.toNode.at? address = some (.element tag children)) :
    ∃ site, (address, site) ∈ Site.located document ∧ site.tag = tag ∧
      site.children = children := by
  have listed : address ∈ document.toNode.elementAddresses :=
    (Xml.Node.mem_elementAddresses _).2 ⟨tag, children, found⟩
  obtain ⟨index, inside, rfl⟩ := List.getElem_of_mem listed
  have length := (Site.forall₂_all document).length_eq
  have located : (document.toNode.elementAddresses[index], (Site.all document)[index]) ∈
      Site.located document :=
    List.mem_iff_getElem.2 ⟨index, by simp [Site.located, ← length, inside], by simp [Site.located]⟩
  have stands := (Site.stands_of_located located).found
  rw [found] at stands
  cases stands
  exact ⟨_, located, rfl, rfl⟩

/-- Nothing is found at an element if it is sound or not structural. -/
theorem Site.violation?_eq_none_of_located (located : (address, site) ∈ Site.located document) :
    site.violation? = none ↔ ∀ tag children, StructuralAt document address tag children →
      IsSound document.toNode address tag children := by
  have stands := Site.stands_of_located located
  rw [Site.violation?_eq_none_iff, stands.breach?_eq_none_iff]
  constructor
  · rintro sound tag children ⟨found, structural⟩
    rw [stands.found] at found
    cases found
    exact sound structural
  · exact fun sound structural => sound _ _ ⟨stands.found, structural⟩

theorem checkStructure_eq_error_iff {violation : Violation} :
    checkStructure document = .error violation ↔
      (Site.all document).findSome? Site.violation? = some violation := by
  unfold checkStructure
  cases (Site.all document).findSome? Site.violation? <;> simp

/-- The check of a document ends at the element at an address: it is the first one with a
violation. -/
def EndsAt (document : Xml.Document) (address : Address) (violation : Violation) : Prop :=
  ∃ site, (address, site) ∈ Site.located document ∧ site.violation? = some violation ∧
    ∀ earlier other, (earlier, other) ∈ Site.located document → earlier < address →
      other.violation? = none

/-- A check that fails ends at an element. -/
theorem checkStructure_eq_error_iff_endsAt {violation : Violation} :
    checkStructure document = .error violation ↔ ∃ address, EndsAt document address violation := by
  rw [checkStructure_eq_error_iff]
  exact Site.findSome?_eq_some_iff_of_sorted document.toNode.elementAddresses_sorted
    (Site.forall₂_all document).length_eq

end Document

/-- The check passes exactly the documents all of whose structural elements are sound, wherever they
stand. Of another document it says how the first of its unsound elements breaks the rules, with the
path that leads there. -/
theorem checkStructure_verdict (document : Xml.Document) :
    (checkStructure document = .ok () ↔ ∀ address tag children,
      StructuralAt document address tag children →
        IsSound document.toNode address tag children) ∧
    ∀ violation, checkStructure document = .error violation ↔
      ∃ address tag children way, StructuralAt document address tag children ∧
        Breaks document.toNode address tag children violation.message violation.reason ∧
        Xml.Leads document.toNode address way ∧
        violation.path = some ("/" ++ document.root.name.localName ++ way) ∧
        ∀ earlier < address, ∀ outer content, StructuralAt document earlier outer content →
          IsSound document.toNode earlier outer content := by
  constructor
  · rw [checkStructure_eq_ok_iff]
    simp only [← Site.violation?_eq_none_iff]
    constructor
    · intro sound address tag children structural
      obtain ⟨site, located, rfl, rfl⟩ := Site.exists_located structural.found
      exact (Site.violation?_eq_none_of_located located).1 (sound site (List.of_mem_zip located).2)
        _ _ structural
    · intro sound site member
      obtain ⟨address, located⟩ := Site.exists_address member
      exact (Site.violation?_eq_none_of_located located).2 (sound address)
  · intro violation
    rw [checkStructure_eq_error_iff_endsAt]
    constructor
    · rintro ⟨address, site, located, found, first⟩
      obtain ⟨structural, breach, broken, rfl⟩ := Site.violation?_eq_some_iff.1 found
      have stands := Site.stands_of_located located
      obtain ⟨way, leads, written⟩ :=
        (Xml.Document.locationPath_eq_iff stands.found).1 stands.locationPath
      refine ⟨address, site.tag, site.children, way, ⟨stands.found, structural⟩,
        stands.breaks_of_breach? broken, leads, congrArg some written,
        fun earlier less outer content among => ?_⟩
      obtain ⟨other, before, rfl, rfl⟩ := Site.exists_located among.found
      exact (Site.violation?_eq_none_of_located before).1 (first earlier other before less) _ _ among
    · rintro ⟨address, tag, children, way, among, breaks, leads, written, sound⟩
      obtain ⟨site, located, rfl, rfl⟩ := Site.exists_located among.found
      have stands := Site.stands_of_located located
      refine ⟨address, site, located, ?_, fun earlier other before less =>
        (Site.violation?_eq_none_of_located before).2 (sound earlier less)⟩
      obtain ⟨breach, found, message, reason⟩ := stands.exists_breach? breaks
      have path := stands.locationPath.trans
        ((Xml.Document.locationPath_eq_iff stands.found).2 ⟨way, leads, rfl⟩).symm
      refine Site.violation?_eq_some_iff.2 ⟨among.structural, breach, found, ?_⟩
      rw [Breach.violation, message, reason, path, ← written]

/-- Nothing is asked of a grammar. -/
theorem MeetsRules.of_grammar {simple qualified : String → Prop} {root : Xml.Node}
    {address : Address} {tag : Xml.Tag} {children : List Xml.Node}
    (grammar : tag.name.localName = "grammar") :
    MeetsRules simple qualified root address tag children := by
  constructor <;> rw [grammar]
  · decide
  all_goals exact fun named => absurd named (by decide)

/-- A note, which is no part of the schema. -/
def Xml.Node.note (content : List Xml.Node) : Xml.Node :=
  .element ⟨⟨some "urn:notes", "note"⟩, [], []⟩ content

/-- A grammar with a definition in the second of two notes in a note. -/
def notedDefinition : Xml.Document := .ofContent
  [.note [.note [], .note [.pattern .define "x" []]]]

/-- The definition in the note is looked at, and it is out of place. -/
theorem noted_definition_refused :
    checkStructure notedDefinition = .error ⟨"<define> outside of a grammar",
      some "definitions may only appear in grammar, div or include",
      some "/grammar/note/note[2]/define"⟩ := by
  have outside : ¬ AmongDefinitions notedDefinition.toNode [0, 1, 0] := by
    rintro ⟨around, step, outer, content, split, above, structural, -⟩
    obtain ⟨rfl, -⟩ := List.append_inj' (show [0, 1] ++ [0] = around ++ [step] from split) rfl
    cases above
    exact absurd structural (by decide)
  have leads : ∃ way, Xml.Leads notedDefinition.toNode [0, 1, 0] way ∧
      "/grammar/note/note[2]/define" = "/" ++ "grammar" ++ way := by
    refine ⟨_, .only rfl ?_ (.among rfl ?_ (.only rfl ?_ (.here _))), ?_⟩ <;> decide
  obtain ⟨way, leads, written⟩ := leads
  refine ((checkStructure_verdict notedDefinition).2 _).2 ⟨[0, 1, 0], _, _, way, ⟨rfl, rfl⟩,
    .misplaced rfl rfl (Name.isSimple_iff.1 (by decide)) outside, leads, congrArg some written, ?_⟩
  -- Of the elements in front only the grammar is structural.
  intro earlier less outer content among
  obtain ⟨site, located, rfl, rfl⟩ := Site.exists_located among.found
  have first : ∀ found ∈ Site.located notedDefinition, found.1 < [0, 1, 0] →
      isStructural found.2.tag.name = true → found.2.tag.name.localName = "grammar" := by decide
  exact .of_grammar (first _ located less among.structural)

/-- A grammar with one definition, whose name is a Greek letter. -/
def greekDefinition : Xml.Document := .ofContent [.pattern .define "ω" []]

/-- Names of XML are refused that are not written in basic characters. -/
theorem greek_definition_refused : ¬ ∀ document : Xml.Document,
    checkStructure document = .ok () ↔ ∀ address tag children,
      StructuralAt document address tag children →
        MeetsRules Name.IsNCName (Name.IsQName Name.IsNCName) document.toNode address tag children := by
  intro verdict
  have refused : checkStructure greekDefinition ≠ .ok () := by decide
  refine refused ((verdict greekDefinition).2 fun address tag children among => ?_)
  obtain ⟨site, located, rfl, rfl⟩ := Site.exists_located among.found
  have tags : ∀ found ∈ Site.located greekDefinition, found.2.tag.name.localName = "grammar" ∨
      (found.1 = [0] ∧ found.2.tag.name.localName = "define" ∧
        found.2.tag.attribute? "name" = some "ω") := by decide
  rcases tags _ located with grammar | ⟨rfl, define, named⟩
  · exact .of_grammar grammar
  · have around : AmongDefinitions greekDefinition.toNode [0] :=
      ⟨[], 0, _, _, rfl, rfl, rfl, by decide⟩
    constructor <;> rw [define]
    · decide
    · exact fun _ => ⟨"ω", named, 'ω', [], rfl, by decide, nofun, by decide⟩
    · exact fun _ => around
    all_goals exact fun other => absurd other (by decide)

end RelaxDoc
