import RelaxDoc.Main
import RelaxDoc.Proofs.Record.Repetition
import RelaxDoc.Proofs.Record.Use
import RelaxDoc.Proofs.Grammar.Scopes
import RelaxDoc.Proofs.Grammar.Spans
import RelaxDoc.Proofs.Search.Unfolding
import RelaxDoc.Proofs.Grammar.Additions
import RelaxDoc.Proofs.Grammar.Remarks
import RelaxDoc.Proofs.Grammar.Growth
import RelaxDoc.Proofs.Grammar.Preorder
import RelaxDoc.Proofs.File.Components
import RelaxDoc.Proofs.File.Places
import RelaxDoc.Proofs.File.Changes
import RelaxDoc.Proofs.File.Directories
import RelaxDoc.Proofs.File.RollBack
import RelaxDoc.Proofs.File.Effect
import RelaxDoc.Proofs.Grammar.Addresses
import RelaxDoc.Proofs.Structure.Rules
import RelaxDoc.Proofs.Structure.Sites
import RelaxDoc.Proofs.Text.Trimming
import RelaxDoc.Proofs.Structure.Assumptions
import RelaxDoc.Proofs.Structure.Padding
import RelaxDoc.Proofs.Grammar.Labels
import RelaxDoc.Proofs.Search.Mirrors
import RelaxDoc.Proofs.Record.Echoes
import RelaxDoc.Proofs.Grammar.Admission
import RelaxDoc.Proofs.Grammar.Rearrangement
import RelaxDoc.Proofs.Record.Order
import RelaxDoc.Proofs.Record.Names
import RelaxDoc.Proofs.Report.Likeness
import RelaxDoc.Proofs.Report.Fidelity
import RelaxDoc.Proofs.Diagram.Drawing
import RelaxDoc.Proofs.Diagram.Simple
import RelaxDoc.Proofs.Diagram.DotText
import RelaxDoc.Proofs.Report.Recovery
import RelaxDoc.Proofs.Json.Grammar
import RelaxDoc.Proofs.Text.Utf8
import RelaxDoc.Proofs.Loading
import RelaxDoc.Proofs.Grammar.Bindings
import RelaxDoc.Proofs.Report.Links
import RelaxDoc.Proofs.Report.PageFiles
import RelaxDoc.Proofs.Search.AnyOrder
import RelaxDoc.Proofs.Structure.Verdict
import RelaxDoc.Proofs.Diagram.Sketch
import RelaxDoc.Proofs.Report.Shape
import RelaxDoc.Proofs.Grammar.Crossing
import RelaxDoc.Proofs.Record.Namespaces
import RelaxDoc.Proofs.Diagram.Repetition
import RelaxDoc.Proofs.Record.Types
import RelaxDoc.Proofs.Grammar.Successors
import RelaxDoc.Proofs.Grammar.Paths
import RelaxDoc.Proofs.Structure.Agreement
import RelaxDoc.Proofs.Text.SingleLine
import RelaxDoc.Proofs.Structure.Namesakes
