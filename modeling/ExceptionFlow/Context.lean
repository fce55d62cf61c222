import ExceptionFlow.Config
import ExceptionFlow.Liveness
/-!
What every step of an analysis run shares: its configuration, its classes, its test for liveness and
the taker of its batches.
-/
namespace ExceptionFlow

structure Context where
  config : Config
  source : ClassSource
  /-- The liveness test at hand, whether the configuration asks for it or not. -/
  liveness : Option Liveness
  /-- Takes a batch or tells why it cannot. -/
  accept : Batch → Except Failure Unit

namespace Context

/-- A context whose liveness test follows the configuration. -/
def new (config : Config) (source : ClassSource) (accept : Batch → Except Failure Unit) :
    Context :=
  { config
    source
    liveness := if config.checkDeadCatch then some (.linear config.maxLiveness) else none
    accept }

/-- The test that guarded regions are checked with, if they are checked at all. -/
def deadCatchTest? (context : Context) : Option Liveness :=
  if context.config.checkDeadCatch then context.liveness else none

/-- Lineages matter only when exceptions are compared along superclasses. -/
def usesHierarchy (context : Context) : Bool :=
  context.config.strategy = .hierarchy

/-- The lineage of a class that is not in the memo, to be kept there. -/
def findLineage (context : Context) (memo : Memo) (name : ClassName) :
    Action (Except Failure Lineage) :=
  match Lineage.find context.source memo context.config.maxDepth name with
  | .error cause => return .error cause
  | .ok lineage => do
    Action.log (.resolved lineage)
    Action.remember lineage
    return .ok lineage

/-- The lineage of a class, from the memo if it is there. By names alone, each class stands for
itself. -/
def resolve (context : Context) (name : ClassName) : Action (Except Failure Lineage) :=
  if context.usesHierarchy then do
    let memo ← Action.getMemo
    match memo.find? name with
    | some lineage => return .ok lineage
    | none => context.findLineage memo name
  else return .ok (.singleton name)

/-- The lineage of a class. A failure is logged and remarked on. -/
def resolveOrRemark (context : Context) (name : ClassName) : Action (Option Lineage) := do
  match ← context.resolve name with
  | .ok lineage => return some lineage
  | .error cause => do
    Action.log (.unresolvedException name cause)
    Action.remark (.ofFailure (.resolving name cause) cause)
    return none

/-- The names that are not known to be unchecked, in order. -/
def checkedNames (context : Context) : List ClassName → Action (List ClassName)
  | [] => return []
  | name :: names => do
    let resolution ← context.resolve name
    let others ← context.checkedNames names
    match resolution with
    | .ok lineage => return if lineage.isUnchecked then others else name :: others
    | .error _ => return name :: others

/-- A throws clause without its unchecked exceptions. By names alone, nothing is known to be
unchecked. -/
def withoutUnchecked (context : Context) (clause : ThrowsClause) : Action ThrowsClause :=
  if context.usesHierarchy then do
    let checked ← context.checkedNames clause.entries
    return clause.filter (· ∈ checked)
  else return clause

end Context

/-- The throws clause of a method. An unreadable signature is logged. -/
def MethodDecl.readThrowsClause (method : MethodDecl) : Action ThrowsClause :=
  match method.signatureFault? with
  | none => return method.throwsClause
  | some (text, fault) => do
    Action.log (.malformedSignature text fault)
    return method.throwsClause

end ExceptionFlow
