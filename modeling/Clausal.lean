import Clausal.Dimacs.Printer
import Clausal.Expression.Grammar
import Clausal.Main
import Clausal.Matrix.Assignment
import Clausal.Matrix.Decoding
import Clausal.Proofs.Decision
import Clausal.Proofs.Search.Enumeration
import Clausal.Workbench
import Clausal.Proofs.Matrix.Satisfaction
import Clausal.Proofs.Search.Splitting
import Clausal.Proofs.Search.Agreement
import Clausal.Proofs.Formula.Truth
import Clausal.Proofs.Matrix.Encoding
import Clausal.Proofs.Matrix.Models
import Clausal.Proofs.Report
import Clausal.Proofs.Search.TruthTable
import Clausal.Proofs.Expression.Grammar
import Clausal.Proofs.Expression.Acceptance
import Clausal.Dimacs.Grammar
import Clausal.Proofs.Dimacs.Line
import Clausal.Proofs.Dimacs.Progress
import Clausal.Proofs.Dimacs.Acceptance
import Clausal.Proofs.Search.Work
import Clausal.Proofs.Expression.Printing
import Clausal.Proofs.RoundTrip
import Clausal.Proofs.Dimacs.Printing
import Clausal.Proofs.Format
import Clausal.Proofs.Dimacs.Limit
import Clausal.Proofs.Search.Nodes
import Clausal.Proofs.Workbench
import Clausal.Proofs.Matrix.Offence
import Clausal.Proofs.Matrix.Cells
import Clausal.Proofs.Search.LeastModel
import Clausal.Proofs.Matrix.Decoding
import Clausal.Proofs.Dimacs.Stage
import Clausal.Proofs.Dimacs.Stopping
import Clausal.Proofs.Dimacs.Layout
import Clausal.Proofs.Matrix.ClauseSet
import Clausal.Proofs.Formula.Renaming
import Clausal.Proofs.Matrix.Renaming
import Clausal.Proofs.Search.Symmetry
import Clausal.Proofs.Expression.Joining
import Clausal.Proofs.Expression.Spacing
import Clausal.Proofs.Failure
import Clausal.Proofs.Outcome
import Clausal.Proofs.Search.Calls
import Clausal.Proofs.Search.Stack
import Clausal.Proofs.Matrix.Access
import Clausal.Proofs.Expression.Slicing
import Clausal.Proofs.Bounds
