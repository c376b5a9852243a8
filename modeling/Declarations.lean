import Declarations.Span
import Declarations.Name
import Declarations.NameTable
import Declarations.Text.Ranges
import Declarations.Text.Blank
import Declarations.Text.Extender
import Declarations.Text.Hidden
import Declarations.Text.Quoted
import Declarations.Decimal.Binary
import Declarations.Decimal.Shortest
import Declarations.Decimal.Layout
import Declarations.Builtin
import Declarations.Literal.Basic
import Declarations.Literal.Successor
import Declarations.Literal.Render
import Declarations.Node.Id
import Declarations.Node.Members
import Declarations.Node.Basic
import Declarations.Store.Basic
import Declarations.Store.Edit
import Declarations.Store.Declare
import Declarations.Store.Register
import Declarations.Store.Replace
import Declarations.Store.Traversal
import Declarations.Diagnostic.Code
import Declarations.Diagnostic.Basic
import Declarations.Diagnostic.Log
import Declarations.Resolution.Progress
import Declarations.Resolution.Backlog
import Declarations.Resolution.Budget
import Declarations.Resolution.Path
import Declarations.Resolution.Registration
import Declarations.Resolution.Basic
import Declarations.Resolution.Lookup
import Declarations.Resolution.Reference
import Declarations.Resolution.Walk
import Declarations.Resolution.Run
import Declarations.Resolution.Tour
import Declarations.Output.Writer
import Declarations.Output.Listing
import Declarations.Output.Size
import Declarations.Library.Address
import Declarations.Library.Loader
import Declarations.Library.Shelf
import Declarations.Proofs.Advance
import Declarations.Proofs.Judgement
import Declarations.Proofs.Walk
import Declarations.Proofs.Forest
import Declarations.Proofs.Pass
import Declarations.Proofs.Settled
import Declarations.Proofs.Justified
import Declarations.Proofs.Run
import Declarations.Proofs.Traversal
import Declarations.Proofs.Trust
import Declarations.Proofs.Deferral
import Declarations.Proofs.Replay
import Declarations.Proofs.Convergence
import Declarations.Proofs.Rules
import Declarations.Proofs.IdlePass
import Declarations.Proofs.LeastFixpoint
import Declarations.Proofs.Reports
import Declarations.Proofs.Reorder
import Declarations.Proofs.OrderIndependence
import Declarations.Proofs.Calls
import Declarations.Proofs.Grounding
import Declarations.Proofs.Locality
import Declarations.Proofs.Answers
import Declarations.Proofs.Pending
import Declarations.Proofs.AliasPasses
import Declarations.Proofs.Members
import Declarations.Proofs.Registration
import Declarations.Proofs.Refusal
import Declarations.Proofs.Progression
import Declarations.Proofs.ForeignElements
import Declarations.Proofs.Construction
import Declarations.Proofs.LogHistory
import Declarations.Proofs.Outcome
import Declarations.Proofs.Course
import Declarations.Proofs.Footprint
import Declarations.Proofs.Extension
import Declarations.Proofs.Undisturbed
import Declarations.Proofs.LogContents
import Declarations.Proofs.Listing
import Declarations.Proofs.ModuleTables
import Declarations.Proofs.Rejections
import Declarations.Proofs.NameTable
import Declarations.Proofs.Nesting
import Declarations.Proofs.Replacement
import Declarations.Proofs.Rendering
import Declarations.Proofs.Unambiguous
import Declarations.Proofs.Pages
import Declarations.Proofs.Sessions
import Declarations.Proofs.Layout
import Declarations.Proofs.Tour
