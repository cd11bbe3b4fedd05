import RelaxDoc.Proofs.Report.Layout
import RelaxDoc.Proofs.Report.Strings

/-! What a reader of the XML report gets. Escaping keeps markup apart from strings, and nothing else: line
ends in a string become line feeds, and in the value of an attribute they and tabs become spaces. -/
namespace RelaxDoc.Report

open Xml

/-- The values of attributes that a reader gets as they are: those without tabs and line ends. -/
def IsLine (text : String) : Prop := ∀ c ∈ text.toList, c ∉ ['\t', '\n', '\r']

/-- The texts that a reader gets as they are: those without carriage returns. -/
def IsUnreturned (text : String) : Prop := ∀ c ∈ text.toList, c ≠ '\r'

theorem withLineEnds_eq_self_iff {text : String} : withLineEnds text = text ↔ IsUnreturned text := by
  rw [← String.toList_inj, withLineEnds, String.toList_ofList, lineEnds_eq_self_iff]
  exact ⟨fun noReturn c mem eq => noReturn (eq ▸ mem), fun other mem => other _ mem rfl⟩

theorem spaced_not_mem (c : Char) : spaced c ∉ ['\t', '\n', '\r'] := by
  unfold spaced
  split
  · decide
  · rename_i other
    simp_all

theorem spacedText_withLineEnds_eq_self_iff {text : String} :
    (spacedText ∘ withLineEnds) text = text ↔ IsLine text := by
  constructor
  · intro same c mem
    rw [← same, Function.comp_apply, spacedText, String.toList_ofList] at mem
    obtain ⟨d, -, rfl⟩ := List.mem_map.1 mem
    exact spaced_not_mem d
  · intro line
    have noReturn : withLineEnds text = text := by
      refine withLineEnds_eq_self_iff.2 fun c mem eq => line c mem ?_
      simp [eq]
    have kept : text.toList.map spaced = text.toList := by
      refine (List.map_congr_left fun c mem => ?_).trans (List.map_id _)
      have other := line c mem
      simp only [List.mem_cons, List.not_mem_nil, or_false, not_or] at other
      simp [spaced, other]
    rw [Function.comp_apply, noReturn, spacedText, kept, String.ofList_toList]

theorem ownStrings_legal : OwnStrings LegalText LegalText :=
  ownStrings_of_isAlphanum (fun _ => isLegal_of_isAlphanum) fun _ => isLegal_of_isAlphanum

theorem ownStrings_kept : OwnStrings IsLine IsUnreturned := by
  refine ownStrings_of_isAlphanum (fun c plain mem => ?_) fun c plain eq => ?_
  · have others : ∀ c ∈ ['\t', '\n', '\r'], c.isAlphanum = false :=
      forall_mem_of_all (by decide)
    exact Bool.false_ne_true ((others c mem).symm.trans plain)
  · subst eq
    exact absurd plain (by decide)

section Reception

variable (indent : Option Nat) (declaration : Bool) {documentation : Documentation}

/-- The report is a document exactly if all strings in it may stand in one. -/
theorem exists_read_xml_iff :
    (∃ document, Document.read (xml indent declaration documentation) = .ok document) ↔
      documentation.Holds LegalText LegalText := by
  obtain ⟨gap, text, isGap, writes, parts⟩ := exists_writes_xml indent declaration documentation
  rw [writes.exists_read_iff isGap parts, sheet_holds ownStrings_legal]

variable {indent declaration}

/-- What a reader of the report gets is its sheet, with line ends and white space as a reader has
them. -/
theorem withoutGaps_of_read_xml {document : Document}
    (read : Document.read (xml indent declaration documentation) = .ok document) :
    document.toNode.withoutGaps = (sheet documentation).received.node := by
  have legal := (exists_read_xml_iff indent declaration).1 ⟨document, read⟩
  obtain ⟨gap, text, isGap, writes, parts⟩ := exists_writes_xml indent declaration documentation
  obtain ⟨document', read', node⟩ :=
    writes.exists_read ((sheet_holds ownStrings_legal).2 legal) isGap parts
  cases read.symm.trans read'
  exact node

/-- The strings that a reader gets are those of the records exactly if none of them has characters for
which a reader has others. -/
theorem received_node_eq_iff :
    (sheet documentation).received.node = (sheet documentation).node ↔
      documentation.Holds IsLine IsUnreturned := by
  rw [Sheet.received, Sheet.node_map_eq_iff, ← sheet_holds ownStrings_kept]
  simp only [spacedText_withLineEnds_eq_self_iff, withLineEnds_eq_self_iff]

end Reception

end RelaxDoc.Report
