import RelaxDoc.Structure.Check

/-! The rules that structural elements follow, in words of their kinds: an element breaks none of
them exactly if it is of a known kind and has what its kind asks for. -/
namespace RelaxDoc

namespace Site

variable {site : Site} {name : String}

/-- An element has what is asked of elements of its kind. -/
structure Follows (site : Site) (kind : Kind) : Prop where
  definitionName : kind = .define ∨ kind = .ref ∨ kind = .parentRef →
    ∃ name, site.tag.attribute? "name" = some name ∧ Name.isSimple name = true
  place : kind = .define → site.holdsDefinitions = true
  type : kind = .data → ∃ type, site.tag.attribute? "type" = some type
  href : kind = .inclusion ∨ kind = .externalRef →
    ∃ href, site.tag.attribute? "href" = some href
  patternName : kind = .element ∨ kind = .attr →
    (∃ name, site.tag.attribute? "name" = some name ∧
      Name.isQualified (Text.trimmed name) = true) ∨
    (site.tag.attribute? "name" = none ∧ beginsWithNameClass site.children = true)

theorem missing?_eq_none_iff :
    site.missing? name = none ↔ ∃ value, site.tag.attribute? name = some value := by
  unfold missing?
  cases site.tag.attribute? name <;> simp

theorem definitionName?_eq_none_iff : site.definitionName? = none ↔
    ∃ name, site.tag.attribute? "name" = some name ∧ Name.isSimple name = true := by
  unfold definitionName?
  cases site.tag.attribute? "name" <;> simp

theorem patternName?_eq_none_iff : site.patternName? = none ↔
    (∃ name, site.tag.attribute? "name" = some name ∧
      Name.isQualified (Text.trimmed name) = true) ∨
    (site.tag.attribute? "name" = none ∧ beginsWithNameClass site.children = true) := by
  unfold patternName?
  cases site.tag.attribute? "name" <;> simp

/-- An element breaks no rule exactly if it is of a known kind and follows the rules of the kind. -/
theorem breach?_eq_none_iff : site.breach? = none ↔
    ∃ kind, Kind.ofTag? site.tag.name.localName = some kind ∧ site.Follows kind := by
  unfold breach?
  cases known : Kind.ofTag? site.tag.name.localName with
  | none => simp
  | some kind =>
    simp only [Option.some.injEq, exists_eq_left']
    constructor
    · intro sound
      cases kind with
      | define =>
        have both : site.definitionName? = none ∧ site.holdsDefinitions = true := by
          simpa using sound
        exact ⟨fun _ => definitionName?_eq_none_iff.1 both.1, fun _ => both.2, nofun, nofun, nofun⟩
      | ref | parentRef =>
        exact ⟨fun _ => definitionName?_eq_none_iff.1 sound, nofun, nofun, nofun, nofun⟩
      | data => exact ⟨nofun, nofun, fun _ => missing?_eq_none_iff.1 sound, nofun, nofun⟩
      | inclusion | externalRef =>
        exact ⟨nofun, nofun, nofun, fun _ => missing?_eq_none_iff.1 sound, nofun⟩
      | element | attr =>
        exact ⟨nofun, nofun, nofun, nofun, fun _ => patternName?_eq_none_iff.1 sound⟩
      | _ => exact ⟨nofun, nofun, nofun, nofun, nofun⟩
    · intro follows
      cases kind with
      | define =>
        have named := definitionName?_eq_none_iff.2 (follows.definitionName (.inl rfl))
        simp [named, follows.place rfl]
      | ref => exact definitionName?_eq_none_iff.2 (follows.definitionName (.inr (.inl rfl)))
      | parentRef => exact definitionName?_eq_none_iff.2 (follows.definitionName (.inr (.inr rfl)))
      | data => exact missing?_eq_none_iff.2 (follows.type rfl)
      | inclusion => exact missing?_eq_none_iff.2 (follows.href (.inl rfl))
      | externalRef => exact missing?_eq_none_iff.2 (follows.href (.inr rfl))
      | element => exact patternName?_eq_none_iff.2 (follows.patternName (.inl rfl))
      | attr => exact patternName?_eq_none_iff.2 (follows.patternName (.inr rfl))
      | _ => rfl

theorem violation?_eq_none_iff : site.violation? = none ↔
    (isStructural site.tag.name = true → site.breach? = none) := by
  unfold violation?
  cases isStructural site.tag.name <;> simp

end Site

/-- The check passes exactly if no structural element breaks the rules. -/
theorem checkStructure_eq_ok_iff {document : Xml.Document} :
    checkStructure document = .ok () ↔
      ∀ site ∈ Site.all document, isStructural site.tag.name = true → site.breach? = none := by
  have all : checkStructure document = .ok () ↔
      ∀ site ∈ Site.all document, site.violation? = none := by
    rw [← List.findSome?_eq_none_iff, checkStructure]
    cases (Site.all document).findSome? Site.violation? <;> simp
  simp only [all, Site.violation?_eq_none_iff]

end RelaxDoc
