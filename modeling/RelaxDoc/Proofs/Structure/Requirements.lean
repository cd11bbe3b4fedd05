import RelaxDoc.Proofs.Structure.Locations
import RelaxDoc.Proofs.Structure.ProperNames
import RelaxDoc.Proofs.Structure.Sites

/-! What is asked of the elements of schema documents, in words of the document: by their local names,
their attributes, their content and the elements around them. An element breaks none of the rules, or
one of them is reported with its wording. -/
namespace RelaxDoc

open Xml (Address)

/-- The local names that elements of schema documents have. -/
def patternTags : List String :=
  ["element", "attribute", "define", "ref", "parentRef", "grammar", "start", "include", "externalRef",
   "zeroOrMore", "oneOrMore", "list", "group", "optional", "interleave", "choice", "data", "text",
   "empty", "notAllowed", "param", "value", "name", "anyName", "nsName", "except", "div", "mixed"]

namespace Kind

variable {tag : String} {kind : Kind}

theorem mem_patternTags_iff : tag ∈ patternTags ↔ ∃ kind, ofTag? tag = some kind := by
  have tags : patternTags = structural.map Kind.tag := rfl
  rw [tags, List.mem_map]
  constructor
  · rintro ⟨kind, listed, rfl⟩
    exact ⟨kind, ofTag?_tag ((mem_structural_iff kind).1 listed)⟩
  · rintro ⟨kind, known⟩
    exact ⟨kind, List.mem_of_find?_eq_some known, tag_of_ofTag? known⟩

theorem eq_tag_iff (known : ofTag? tag = some kind) (other : Kind) :
    tag = other.tag ↔ kind = other := by
  rw [← tag_of_ofTag? known]
  exact ⟨tag_injective, congrArg Kind.tag⟩

theorem mem_pair_iff (known : ofTag? tag = some kind) (first second : Kind) :
    tag ∈ [first.tag, second.tag] ↔ kind = first ∨ kind = second := by
  rw [List.mem_cons, List.mem_singleton, eq_tag_iff known, eq_tag_iff known]

theorem isDefinition_iff (known : ofTag? tag = some kind) :
    tag ∈ ["define", "ref", "parentRef"] ↔ kind = .define ∨ kind = .ref ∨ kind = .parentRef := by
  rw [List.mem_cons]
  exact or_congr (eq_tag_iff known .define) (mem_pair_iff known .ref .parentRef)

end Kind

/-- The first structural element among nodes is a name class. -/
def OpensWithNameClass (nodes : List Xml.Node) : Prop :=
  ∃ front tag children back, nodes = front ++ .element tag children :: back ∧
    (∀ other content, .element other content ∈ front → isStructural other.name = false) ∧
    isStructural tag.name = true ∧ tag.name.localName ∈ ["name", "anyName", "nsName", "choice"]

theorem beginsWithNameClass_element (tag : Xml.Tag) (content rest : List Xml.Node) :
    beginsWithNameClass (.element tag content :: rest) =
      if isStructural tag.name then
        ["name", "anyName", "nsName", "choice"].contains tag.name.localName
      else beginsWithNameClass rest := by
  have names : Site.elementNames (.element tag content :: rest) =
    tag.name :: Site.elementNames rest := rfl
  unfold beginsWithNameClass
  rw [names, List.find?_cons]
  cases isStructural tag.name <;> rfl

theorem beginsWithNameClass_iff {nodes : List Xml.Node} :
    beginsWithNameClass nodes = true ↔ OpensWithNameClass nodes := by
  constructor
  · intro begins
    induction nodes with
    | nil => cases begins
    | cons node rest ih =>
      by_cases structural : ∃ tag content, node = .element tag content ∧
          isStructural tag.name = true
      · obtain ⟨tag, content, rfl, structural⟩ := structural
        rw [beginsWithNameClass_element, if_pos structural] at begins
        exact ⟨[], tag, content, rest, rfl, nofun, structural, by simpa using begins⟩
      · have other (tag content) (same : node = .element tag content) :
            isStructural tag.name = false :=
          eq_false_of_ne_true fun holds => structural ⟨tag, content, same, holds⟩
        have later : beginsWithNameClass rest = true := by
          cases node with
          | element tag content =>
            rwa [beginsWithNameClass_element, other tag content rfl] at begins
          | text | comment | instruction => exact begins
        obtain ⟨front, tag, children, back, rfl, free, found⟩ := ih later
        refine ⟨node :: front, tag, children, back, rfl, fun outer content member => ?_, found⟩
        rcases List.mem_cons.1 member with here | later
        · exact other outer content here.symm
        · exact free outer content later
  · rintro ⟨front, tag, children, back, rfl, free, structural, named⟩
    induction front with
    | nil =>
      rw [List.nil_append, beginsWithNameClass_element, if_pos structural]
      simpa using named
    | cons node rest ih =>
      have later := ih fun other content member =>
        free other content (List.mem_cons_of_mem _ member)
      rw [List.cons_append]
      cases node with
      | element other content =>
        rwa [beginsWithNameClass_element, free other content (List.mem_cons_self ..)]
      | text | comment | instruction => exact later

/-- The element around an address is one that definitions may stand in. -/
def AmongDefinitions (root : Xml.Node) (address : Address) : Prop :=
  ∃ around step outer content, address = around ++ [step] ∧
    root.at? around = some (.element outer content) ∧ isStructural outer.name = true ∧
      outer.name.localName ∈ ["grammar", "div", "include"]

theorem Xml.Node.outerName?_concat {root node outer : Xml.Node} {around : Address} {step : Nat}
    (above : root.at? around = some outer) (inside : outer.children[step]? = some node)
    (beyond : Option Xml.Name) :
    root.outerName? beyond (around ++ [step]) = outer.tag?.map Xml.Tag.name := by
  induction around generalizing root beyond with
  | nil =>
    cases above
    rw [List.nil_append, outerName?, inside]
    rfl
  | cons index rest ih =>
    obtain ⟨child, here, above⟩ := Xml.Node.at?_cons.1 above
    rw [List.cons_append, outerName?, here, Option.bind_some, ih above]

section Rules

variable (simple qualified : String → Prop) (root : Xml.Node) (address : Address) (tag : Xml.Tag)
  (children : List Xml.Node)

/-- What is asked of an element at an address, when `simple` tells the names of definitions and
`qualified` those of elements and attributes. -/
structure MeetsRules : Prop where
  known : tag.name.localName ∈ patternTags
  definitionName : tag.name.localName ∈ ["define", "ref", "parentRef"] →
    ∃ name, tag.attribute? "name" = some name ∧ simple name
  place : tag.name.localName = "define" → AmongDefinitions root address
  type : tag.name.localName = "data" → ∃ type, tag.attribute? "type" = some type
  href : tag.name.localName ∈ ["include", "externalRef"] →
    ∃ href, tag.attribute? "href" = some href
  patternName : tag.name.localName ∈ ["element", "attribute"] →
    (∃ name, tag.attribute? "name" = some name ∧ qualified name) ∨
    (tag.attribute? "name" = none ∧ OpensWithNameClass children)

/-- An element meets the rules with names in basic characters. White space around the name of a
pattern does not count, as it is not read as part of the name. -/
def IsSound : Prop :=
  MeetsRules Name.IsProper (fun name => Name.IsQName Name.IsProper (Text.trimmed name)) root address
    tag children

/-- How an element breaks the rules: what is said of it, and the reason that is given. That a
definition is out of place counts only if its name is a proper one. -/
inductive Breaks : (message : String) → (reason : Option String) → Prop where
  | unknown (unknown : tag.name.localName ∉ patternTags) :
    Breaks ("unknown RELAX NG element '" ++ tag.name.localName ++ "'") none
  | anonymous (definition : tag.name.localName ∈ ["define", "ref", "parentRef"])
    (none : tag.attribute? "name" = none) :
    Breaks ("<" ++ tag.name.localName ++ "> is missing the 'name' attribute") .none
  | misnamed {name : String} (definition : tag.name.localName ∈ ["define", "ref", "parentRef"])
    (named : tag.attribute? "name" = some name) (bad : ¬ Name.IsProper name) :
    Breaks ("'" ++ name ++ "' is not a valid definition name")
      (some "definition names must be NCNames")
  | misplaced {name : String} (define : tag.name.localName = "define")
    (named : tag.attribute? "name" = some name) (proper : Name.IsProper name)
    (outside : ¬ AmongDefinitions root address) :
    Breaks "<define> outside of a grammar"
      (some "definitions may only appear in grammar, div or include")
  | untyped (data : tag.name.localName = "data") (none : tag.attribute? "type" = none) :
    Breaks "<data> is missing the 'type' attribute" .none
  | aimless (outward : tag.name.localName ∈ ["include", "externalRef"])
    (none : tag.attribute? "href" = none) :
    Breaks ("<" ++ tag.name.localName ++ "> is missing the 'href' attribute") .none
  | illNamed {name : String} (pattern : tag.name.localName ∈ ["element", "attribute"])
    (named : tag.attribute? "name" = some name)
    (bad : ¬ Name.IsQName Name.IsProper (Text.trimmed name)) :
    Breaks ("'" ++ Text.trimmed name ++ "' is not a valid name") none
  | unnamed (pattern : tag.name.localName ∈ ["element", "attribute"])
    (none : tag.attribute? "name" = none) (unopened : ¬ OpensWithNameClass children) :
    Breaks ("<" ++ tag.name.localName ++ "> needs a 'name' attribute or a name class") .none

end Rules

/-- The wording for want of an attribute, with the name of the attribute in its place. -/
theorem Breach.message_missing (tag name : String) {rest : String}
    (wording : "> is missing the '" ++ name ++ "' attribute" = rest) :
    (Breach.missing tag name).message = "<" ++ tag ++ rest := by
  have joined : (Breach.missing tag name).message =
    "<" ++ tag ++ "> is missing the '" ++ name ++ "' attribute" := rfl
  simp only [joined, ← wording, String.append_assoc]

namespace Site

variable {root : Xml.Node} {address : Address} {site : Site} {steps : List PathStep} {breach : Breach}

theorem Stands.holdsDefinitions_iff (stands : Stands root none steps address site) :
    site.holdsDefinitions = true ↔ AmongDefinitions root address := by
  have found := stands.found
  rw [Site.holdsDefinitions, stands.parent]
  rcases List.eq_nil_or_concat address with rfl | ⟨around, step, split⟩
  · constructor
    · intro holds
      cases holds
    · rintro ⟨around, step, _, _, none, _⟩
      simp at none
  · rw [List.concat_eq_append] at split
    subst split
    obtain ⟨outer, above, inside⟩ := Xml.Node.at?_concat_iff.1 found
    rw [Xml.Node.outerName?_concat above inside]
    cases outer with
    | element outer content =>
      constructor
      · intro holds
        obtain ⟨structural, named⟩ := Bool.and_eq_true_iff.1 holds
        exact ⟨around, step, outer, content, rfl, above, structural, by simpa using named⟩
      · rintro ⟨again, other, tag, children, same, there, structural, named⟩
        obtain ⟨rfl, -⟩ := List.append_inj' same rfl
        rw [above] at there
        cases there
        exact Bool.and_eq_true_iff.2 ⟨structural, by simpa using named⟩
    | text | comment | instruction => cases inside

theorem Stands.breach?_eq_none_iff (stands : Stands root none steps address site) :
    site.breach? = none ↔ IsSound root address site.tag site.children := by
  have pattern : (∃ name, site.tag.attribute? "name" = some name ∧
        Name.isQualified (Text.trimmed name) = true) ∨
      (site.tag.attribute? "name" = none ∧ beginsWithNameClass site.children = true) ↔
      (∃ name, site.tag.attribute? "name" = some name ∧
        Name.IsQName Name.IsProper (Text.trimmed name)) ∨
      (site.tag.attribute? "name" = none ∧ OpensWithNameClass site.children) := by
    simp only [Name.isQualified_iff, beginsWithNameClass_iff]
  rw [Site.breach?_eq_none_iff]
  constructor
  · rintro ⟨kind, known, follows⟩
    exact ⟨Kind.mem_patternTags_iff.2 ⟨kind, known⟩,
      fun definition => (follows.definitionName ((Kind.isDefinition_iff known).1 definition)).imp
        fun _ => And.imp_right Name.isSimple_iff.1,
      fun define => stands.holdsDefinitions_iff.1
        (follows.place ((Kind.eq_tag_iff known .define).1 define)),
      fun data => follows.type ((Kind.eq_tag_iff known .data).1 data),
      fun outward => follows.href ((Kind.mem_pair_iff known .inclusion .externalRef).1 outward),
      fun named => pattern.1 (follows.patternName ((Kind.mem_pair_iff known .element .attr).1 named))⟩
  · intro meets
    obtain ⟨kind, known⟩ := Kind.mem_patternTags_iff.1 meets.known
    exact ⟨kind, known,
      fun definition => (meets.definitionName ((Kind.isDefinition_iff known).2 definition)).imp
        fun _ => And.imp_right Name.isSimple_iff.2,
      fun define => stands.holdsDefinitions_iff.2
        (meets.place ((Kind.eq_tag_iff known .define).2 define)),
      fun data => meets.type ((Kind.eq_tag_iff known .data).2 data),
      fun outward => meets.href ((Kind.mem_pair_iff known .inclusion .externalRef).2 outward),
      fun named => pattern.2 (meets.patternName ((Kind.mem_pair_iff known .element .attr).2 named))⟩

theorem missing?_eq_some_iff {name : String} :
    site.missing? name = some breach ↔
      site.tag.attribute? name = none ∧ breach = .missing site.tag.name.localName name := by
  unfold missing?
  cases site.tag.attribute? name <;> simp [eq_comm]

theorem definitionName?_eq_some_iff : site.definitionName? = some breach ↔
    (site.tag.attribute? "name" = none ∧ breach = .missing site.tag.name.localName "name") ∨
    ∃ name, site.tag.attribute? "name" = some name ∧ ¬ Name.IsProper name ∧
      breach = .badDefinitionName name := by
  unfold definitionName?
  simp only [← Name.isSimple_iff]
  cases site.tag.attribute? "name" <;> simp [@eq_comm _ breach]

theorem patternName?_eq_some_iff : site.patternName? = some breach ↔
    (∃ name, site.tag.attribute? "name" = some name ∧
      ¬ Name.IsQName Name.IsProper (Text.trimmed name) ∧ breach = .badName (Text.trimmed name)) ∨
    (site.tag.attribute? "name" = none ∧ ¬ OpensWithNameClass site.children ∧
      breach = .unnamed site.tag.name.localName) := by
  unfold patternName?
  simp only [← Name.isQualified_iff, ← beginsWithNameClass_iff]
  cases site.tag.attribute? "name" <;> simp [@eq_comm _ breach]

section Wording

variable {message : String} {reason : Option String}

theorem breaks_of_definitionName? (definition : site.tag.name.localName ∈ ["define", "ref", "parentRef"])
    (found : site.definitionName? = some breach) :
    Breaks root address site.tag site.children breach.message breach.reason := by
  rcases definitionName?_eq_some_iff.1 found with ⟨none, rfl⟩ | ⟨name, named, bad, rfl⟩
  · rw [Breach.message_missing _ _ rfl]
    exact .anonymous definition none
  · exact .misnamed definition named bad

theorem breaks_of_patternName? (pattern : site.tag.name.localName ∈ ["element", "attribute"])
    (found : site.patternName? = some breach) :
    Breaks root address site.tag site.children breach.message breach.reason := by
  rcases patternName?_eq_some_iff.1 found with ⟨name, named, bad, rfl⟩ | ⟨none, unopened, rfl⟩
  · exact .illNamed pattern named bad
  · exact .unnamed pattern none unopened

/-- What is found at an element is how it breaks the rules. -/
theorem Stands.breaks_of_breach? (stands : Stands root none steps address site)
    (found : site.breach? = some breach) :
    Breaks root address site.tag site.children breach.message breach.reason := by
  unfold breach? at found
  split at found
  case h_1 unknown =>
    cases found
    refine .unknown fun listed => ?_
    obtain ⟨kind, known⟩ := Kind.mem_patternTags_iff.1 listed
    cases unknown.symm.trans known
  case h_2 known =>
    cases first : site.definitionName? with
    | some other =>
      rw [first] at found
      cases found
      exact breaks_of_definitionName? ((Kind.isDefinition_iff known).2 (by simp)) first
    | none =>
      obtain ⟨name, written, simple⟩ := definitionName?_eq_none_iff.1 first
      rw [first] at found
      by_cases holds : site.holdsDefinitions = true
      · simp [holds] at found
      · obtain rfl : Breach.misplacedDefinition = breach := by simpa [holds] using found
        exact .misplaced ((Kind.eq_tag_iff known .define).2 rfl) written (Name.isSimple_iff.1 simple)
          (holds ∘ stands.holdsDefinitions_iff.2)
  case h_3 known | h_4 known =>
    exact breaks_of_definitionName? ((Kind.isDefinition_iff known).2 (by simp)) found
  case h_5 known =>
    obtain ⟨none, rfl⟩ := missing?_eq_some_iff.1 found
    have data := (Kind.eq_tag_iff known .data).2 rfl
    rw [Breach.message_missing _ _ rfl, data]
    exact .untyped data none
  case h_6 known | h_7 known =>
    obtain ⟨none, rfl⟩ := missing?_eq_some_iff.1 found
    rw [Breach.message_missing _ _ rfl]
    exact .aimless ((Kind.mem_pair_iff known .inclusion .externalRef).2 (by simp)) none
  case h_8 known | h_9 known =>
    exact breaks_of_patternName? ((Kind.mem_pair_iff known .element .attr).2 (by simp)) found
  case h_10 => cases found

theorem breach?_of_definitionName?
    (definition : site.tag.name.localName ∈ ["define", "ref", "parentRef"])
    (found : site.definitionName? = some breach) : site.breach? = some breach := by
  simp only [List.mem_cons, List.not_mem_nil, or_false] at definition
  unfold breach?
  rcases definition with named | named | named <;> rw [named]
  · exact congrArg (· <|> _) found
  · exact found
  · exact found

theorem breach?_of_patternName? (pattern : site.tag.name.localName ∈ ["element", "attribute"])
    (found : site.patternName? = some breach) : site.breach? = some breach := by
  simp only [List.mem_cons, List.not_mem_nil, or_false] at pattern
  unfold breach?
  rcases pattern with named | named <;> rw [named] <;> exact found

theorem breach?_of_missing? {name : String}
    (needed : (site.tag.name.localName = "data" ∧ name = "type") ∨
      (site.tag.name.localName ∈ ["include", "externalRef"] ∧ name = "href"))
    (none : site.tag.attribute? name = none) :
    site.breach? = some (.missing site.tag.name.localName name) := by
  have found : site.missing? name = some _ := missing?_eq_some_iff.2 ⟨none, rfl⟩
  simp only [List.mem_cons, List.not_mem_nil, or_false] at needed
  unfold breach?
  obtain ⟨named, rfl⟩ | ⟨named | named, rfl⟩ := needed
  all_goals
    rw [named] at found ⊢
    exact found

/-- How an element breaks the rules is found at it. -/
theorem Stands.exists_breach? (stands : Stands root none steps address site)
    (breaks : Breaks root address site.tag site.children message reason) :
    ∃ breach, site.breach? = some breach ∧ breach.message = message ∧ breach.reason = reason := by
  cases breaks with
  | unknown unknown =>
    have unknown : Kind.ofTag? site.tag.name.localName = none :=
      Option.eq_none_iff_forall_ne_some.2 fun kind known =>
        unknown (Kind.mem_patternTags_iff.2 ⟨kind, known⟩)
    refine ⟨.unknownElement site.tag.name.localName, ?_, rfl, rfl⟩
    rw [breach?, unknown]
  | anonymous definition none =>
    have found := definitionName?_eq_some_iff.2 (.inl ⟨none, rfl⟩)
    exact ⟨_, breach?_of_definitionName? definition found, Breach.message_missing _ _ rfl, rfl⟩
  | misnamed definition named bad =>
    have found := definitionName?_eq_some_iff.2 (.inr ⟨_, named, bad, rfl⟩)
    exact ⟨_, breach?_of_definitionName? definition found, rfl, rfl⟩
  | misplaced define named proper outside =>
    have simple := definitionName?_eq_none_iff.2 ⟨_, named, Name.isSimple_iff.2 proper⟩
    have holds : site.holdsDefinitions = false :=
      eq_false_of_ne_true (outside ∘ stands.holdsDefinitions_iff.1)
    have known : Kind.ofTag? site.tag.name.localName = some .define := by
      rw [define]
      rfl
    exact ⟨.misplacedDefinition, by simp [breach?, known, simple, holds], rfl, rfl⟩
  | untyped data none =>
    refine ⟨_, breach?_of_missing? (.inl ⟨data, rfl⟩) none, ?_, rfl⟩
    rw [Breach.message_missing _ _ rfl, data]
    rfl
  | aimless outward none =>
    exact ⟨_, breach?_of_missing? (.inr ⟨outward, rfl⟩) none, Breach.message_missing _ _ rfl, rfl⟩
  | illNamed pattern named bad =>
    have found := patternName?_eq_some_iff.2 (.inl ⟨_, named, bad, rfl⟩)
    exact ⟨_, breach?_of_patternName? pattern found, rfl, rfl⟩
  | unnamed pattern none unopened =>
    have found := patternName?_eq_some_iff.2 (.inr ⟨none, unopened, rfl⟩)
    exact ⟨_, breach?_of_patternName? pattern found, rfl, rfl⟩

end Wording

end Site

end RelaxDoc
