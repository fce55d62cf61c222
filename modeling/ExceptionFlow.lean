import ExceptionFlow.Text.CodePoints
import ExceptionFlow.Text.Blank
import ExceptionFlow.Text.Alphanumeric
import ExceptionFlow.Text.Hex
import ExceptionFlow.Text.Visible
import ExceptionFlow.Text.Quoted
import ExceptionFlow.ClassName
import ExceptionFlow.Failure
import ExceptionFlow.AccessFlags
import ExceptionFlow.Declaration
import ExceptionFlow.Classpath
import ExceptionFlow.Signature.Cursor
import ExceptionFlow.Signature.Types
import ExceptionFlow.Signature.Method
import ExceptionFlow.Listing
import ExceptionFlow.ThrowsClause
import ExceptionFlow.Call
import ExceptionFlow.Body
import ExceptionFlow.Config
import ExceptionFlow.Lineage
import ExceptionFlow.Coverage
import ExceptionFlow.Report
import ExceptionFlow.Log
import ExceptionFlow.Action
import ExceptionFlow.Liveness
import ExceptionFlow.Context
import ExceptionFlow.FlowLog
import ExceptionFlow.Detector
import ExceptionFlow.Operation
import ExceptionFlow.Describe
import ExceptionFlow.Proofs.ClauseOrder
import ExceptionFlow.Proofs.Ascent
import ExceptionFlow.Proofs.Contract
import ExceptionFlow.Proofs.Resolution
import ExceptionFlow.Proofs.Recording
import ExceptionFlow.Proofs.MethodRun
import ExceptionFlow.Proofs.Operating
import ExceptionFlow.Proofs.Reachability
import ExceptionFlow.Proofs.Findings
import ExceptionFlow.Proofs.DeepClasses
import ExceptionFlow.Proofs.Unchecked
import ExceptionFlow.Proofs.History
import ExceptionFlow.Proofs.Throwables
import ExceptionFlow.Proofs.Obstacles
import ExceptionFlow.Proofs.Lifecycle
import ExceptionFlow.Proofs.Grammar
import ExceptionFlow.Proofs.Consuming
import ExceptionFlow.Proofs.TypeReading
import ExceptionFlow.Proofs.SignatureReading
import ExceptionFlow.Proofs.Misuse
import ExceptionFlow.Proofs.Strategies
import ExceptionFlow.Proofs.DeadCatch
import ExceptionFlow.Proofs.CallSearch
import ExceptionFlow.Proofs.Thinning
import ExceptionFlow.Proofs.Reading
import ExceptionFlow.Proofs.Trailing
import ExceptionFlow.Proofs.LostCalls
import ExceptionFlow.Proofs.MissingClasses
import ExceptionFlow.Proofs.InterfaceSearch
import ExceptionFlow.Proofs.SuperclassChain
import ExceptionFlow.Proofs.Handover
import ExceptionFlow.Proofs.Deliveries
import ExceptionFlow.Proofs.Accounting
import ExceptionFlow.Proofs.Reconciliation
import ExceptionFlow.Proofs.Rethrows
import ExceptionFlow.Proofs.CallFates
import ExceptionFlow.Proofs.Verdicts
import ExceptionFlow.Proofs.ByNames
import ExceptionFlow.Proofs.Widening
import ExceptionFlow.Proofs.WriteOnce
import ExceptionFlow.Proofs.Truncation
import ExceptionFlow.Proofs.Listings
import ExceptionFlow.Proofs.LinearLiveness
import ExceptionFlow.Proofs.OwnClause
import ExceptionFlow.Proofs.LineLookup
import ExceptionFlow.Proofs.BoundChains
import ExceptionFlow.Proofs.Boundaries
