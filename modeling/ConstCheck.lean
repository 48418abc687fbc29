import ConstCheck.Check.Checker
import ConstCheck.Diagnostic.Render
import ConstCheck.Expr.Text
import ConstCheck.Floating.Interchange
import ConstCheck.Proofs.Narrowing
import ConstCheck.Proofs.Nodes
import ConstCheck.Proofs.Rounding
import ConstCheck.Proofs.Fits
import ConstCheck.Proofs.Machine
import ConstCheck.Proofs.Exact
import ConstCheck.Proofs.WellKinded
import ConstCheck.Proofs.Faithful
import ConstCheck.Proofs.Lost
import ConstCheck.Proofs.Silent
import ConstCheck.Proofs.Nearest
import ConstCheck.Proofs.Reach
import ConstCheck.Proofs.Reports
import ConstCheck.Proofs.Constants
import ConstCheck.Proofs.Internal
import ConstCheck.Proofs.Evaluations
import ConstCheck.Proofs.Implicit
import ConstCheck.Proofs.Parentheses
import ConstCheck.Proofs.SourceOrder
import ConstCheck.Proofs.Coherent
import ConstCheck.Proofs.Mentions
import ConstCheck.Proofs.Noninterference
import ConstCheck.Proofs.Substitution
import ConstCheck.Proofs.WordSize
import ConstCheck.Proofs.Overlooked
import ConstCheck.Proofs.SeenThrough
import ConstCheck.Proofs.Wrapping
import ConstCheck.Proofs.Losses
import ConstCheck.Proofs.Invertible
import ConstCheck.Proofs.IntSpelling
import ConstCheck.Proofs.FloatSpelling
import ConstCheck.Proofs.OperatorTable
import ConstCheck.Proofs.ZeroDivisor
import ConstCheck.Proofs.WholeNumbers
import ConstCheck.Proofs.Arithmetic
import ConstCheck.Proofs.Digits
import ConstCheck.Proofs.ByteOrder
import ConstCheck.Proofs.Comparison
import ConstCheck.Proofs.ComplexParts
import ConstCheck.Proofs.Convertible
import ConstCheck.Proofs.Positions
import ConstCheck.Proofs.Underline
import ConstCheck.Proofs.Growth
import ConstCheck.Proofs.TypeText
import ConstCheck.Proofs.NameTable
import ConstCheck.Proofs.Sessions
import ConstCheck.Proofs.Sharing
