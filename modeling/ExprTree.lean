import ExprTree.Host.Sample
import ExprTree.Main
import ExprTree.Proofs.Ty.Building
import ExprTree.Proofs.Ty.Substitution
import ExprTree.Proofs.Action
import ExprTree.Proofs.Document.Decoding
import ExprTree.Proofs.Document.Retry
import ExprTree.Proofs.Number.Digits
import ExprTree.Proofs.Policy.Reload
import ExprTree.Proofs.Document.Constant
import ExprTree.Proofs.Document.Guid
import ExprTree.Proofs.Document.Interning
import ExprTree.Proofs.Document.Arena
import ExprTree.Proofs.Document.Portable
import ExprTree.Proofs.Document.Restoring
import ExprTree.Proofs.Document.RoundTrip
import ExprTree.Proofs.Signature.OwnName
import ExprTree.Proofs.Document.Gating
import ExprTree.Proofs.Node.Copies
import ExprTree.Proofs.Document.Agreement
import ExprTree.Proofs.Eval.Blind
import ExprTree.Proofs.Eval.Runs
import ExprTree.Proofs.Eval.Types
import ExprTree.Proofs.Eval.Uniform
import ExprTree.Proofs.Eval.Simulation
import ExprTree.Proofs.Eval.Sessions
import ExprTree.Proofs.Host.Query
import ExprTree.Proofs.Host.Builtin
import ExprTree.Proofs.Host.Sample
import ExprTree.Proofs.Document.Running
import ExprTree.Proofs.Signature.Grammar
import ExprTree.Proofs.Signature.Acceptance
import ExprTree.Proofs.Node.Refusals
import ExprTree.Proofs.Document.Steps
import ExprTree.Proofs.Document.Faults
import ExprTree.Proofs.Signature.Sources
import ExprTree.Proofs.Signature.Consulting
import ExprTree.Proofs.Document.Loading
import ExprTree.Proofs.Eval.Scopes
import ExprTree.Proofs.Eval.Faults
import ExprTree.Proofs.Eval.Binding
import ExprTree.Proofs.Eval.Scoping
import ExprTree.Proofs.Signature.Reaching
import ExprTree.Proofs.Signature.Yielding
import ExprTree.Proofs.Document.Meeting
import ExprTree.Proofs.Document.Identity
import ExprTree.Proofs.Document.Decoded
import ExprTree.Proofs.Document.Writing
import ExprTree.Proofs.Document.Reencoding
import ExprTree.Proofs.Eval.Lexical
import ExprTree.Proofs.Eval.Positions
import ExprTree.Proofs.Eval.Resolution
import ExprTree.Proofs.Scalar.Types
import ExprTree.Proofs.Scalar.Arithmetic
import ExprTree.Proofs.Scalar.Operators
import ExprTree.Proofs.Scalar.Trees
import ExprTree.Proofs.Scalar.Running
import ExprTree.Proofs.Scalar.Soundness
import ExprTree.Proofs.Json.Text
import ExprTree.Proofs.Json.RoundTrip
import ExprTree.Proofs.Json.Limits
import ExprTree.Proofs.Document.Formats
import ExprTree.Proofs.Document.Lines
import ExprTree.Proofs.Document.Shown
import ExprTree.Proofs.Disk
import ExprTree.Proofs.Storage
import ExprTree.Proofs.CommandLine.Converting
import ExprTree.Proofs.CommandLine.Reporting
import ExprTree.Proofs.Scalar.Exact
import ExprTree.Proofs.Eval.Closures
import ExprTree.Proofs.Eval.Updates
import ExprTree.Proofs.Scalar.Equality
import ExprTree.Proofs.Document.Instances
import ExprTree.Proofs.Number.Patterns
import ExprTree.Proofs.Number.Overflow
import ExprTree.Proofs.Scalar.Integers
import ExprTree.Proofs.Scalar.Division
import ExprTree.Proofs.Scalar.Bits
import ExprTree.Proofs.Scalar.Powers
import ExprTree.Proofs.Scalar.Truncation
import ExprTree.Proofs.Signature.Halting
import ExprTree.Proofs.Signature.Canonical
import ExprTree.Proofs.Signature.Transparency
import ExprTree.Proofs.Closing
import ExprTree.Proofs.Ty.Interchange
import ExprTree.Proofs.Query.Visiting
import ExprTree.Proofs.Query.Sorting
import ExprTree.Proofs.Query.Grouping
