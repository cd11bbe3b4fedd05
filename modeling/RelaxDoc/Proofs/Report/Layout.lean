import RelaxDoc.Proofs.Report.Sheets
import RelaxDoc.Proofs.Xml.Indentation
import RelaxDoc.Proofs.Xml.Unambiguous

/-! The layout of the XML report: with any indentation, and with or without a declaration, what is
written is the one sheet of the documentation. -/
namespace RelaxDoc.Report

open Xml

/-- The report is a declaration and a gap, if there is to be one, and a text that writes the sheet of
the documentation. -/
theorem exists_writes_xml (indent : Option Nat) (declaration : Bool) (documentation : Documentation) :
    ∃ gap text, IsGap gap ∧ (sheet documentation).Writes text ∧
      (xml indent declaration documentation).toList =
        (if declaration then Markup.declaration.chars ++ gap else []) ++ text := by
  rw [xml, ← markup_sheet]
  exact exists_written indent declaration (sheet documentation)

/-- Without indentation and declaration the tags and texts of the sheet stand right behind each other. -/
theorem xml_compact (documentation : Documentation) :
    (xml none false documentation).toList = compactChars (sheet documentation).markup := by
  simp [xml, write, markup_sheet]

/-- Indentation adds nothing but gaps. What stands behind the declaration and the gap behind that
writes the sheet whose tags and texts stand right behind each other in the report without indentation: the
elements, the attribute values and the texts in elements are the same, with gaps only between tags
of different elements. Neither text writes another sheet. -/
theorem xml_indented (width : Nat) (declaration : Bool) (documentation : Documentation) :
    ∃ gap laid, IsGap gap ∧
      (xml (some width) declaration documentation).toList =
        (if declaration then Markup.declaration.chars ++ gap else []) ++ laid ∧
      (xml none false documentation).toList = compactChars (sheet documentation).markup ∧
      (∀ other : Sheet, other.Writes laid ↔ other = sheet documentation) ∧
      (∀ other : Sheet, other.Writes (xml none false documentation).toList ↔
        other = sheet documentation) := by
  obtain ⟨gap, laid, isGap, writes, whole⟩ := exists_writes_xml (some width) declaration documentation
  have only {text : List Char} (here : (sheet documentation).Writes text) (other : Sheet) :
      other.Writes text ↔ other = sheet documentation :=
    ⟨fun others => others.unique here, fun same => same ▸ here⟩
  have compact := (sheet documentation).writes_compact
  rw [← xml_compact] at compact
  exact ⟨gap, laid, isGap, whole, xml_compact documentation, only writes, only compact⟩

end RelaxDoc.Report
