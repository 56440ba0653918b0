import TermGraph.Print.Compact
import TermGraph.Print.Outline
import TermGraph.Print.Structural
import TermGraph.Ranking
import TermGraph.Script.Request
import TermGraph.Store
import TermGraph.Table
import TermGraph.Visitor
import TermGraph.Proofs.Tree
import TermGraph.Proofs.TreeOrder
import TermGraph.Proofs.Summary
import TermGraph.Proofs.Comparison
import TermGraph.Proofs.Copy
import TermGraph.Proofs.Checks
import TermGraph.Proofs.Reach
import TermGraph.Proofs.Guarantees
import TermGraph.Proofs.Canonical
import TermGraph.Proofs.FieldTable
import TermGraph.Proofs.Reading
import TermGraph.Proofs.StructuralText
import TermGraph.Proofs.OutlineText
import TermGraph.Proofs.Traversal
import TermGraph.Proofs.Presence
import TermGraph.Proofs.Related
import TermGraph.Proofs.CompactText
import TermGraph.Proofs.Twins
import TermGraph.Proofs.Sharing
import TermGraph.Proofs.Rebuild
import TermGraph.Proofs.Lexicographic
import TermGraph.Proofs.Classes
import TermGraph.Proofs.Blame
import TermGraph.Proofs.Steps
import TermGraph.Proofs.Log
import TermGraph.Proofs.ResultType
import TermGraph.Proofs.OutlineLayout
import TermGraph.Proofs.Domains
import TermGraph.Proofs.Reflection
import TermGraph.Proofs.CompactReading
import TermGraph.Proofs.NameOrder
import TermGraph.Proofs.Members
import TermGraph.Proofs.FieldView
import TermGraph.Proofs.Emission
import TermGraph.Proofs.Tables
