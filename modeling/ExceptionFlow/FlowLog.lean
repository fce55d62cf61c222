import ExceptionFlow.Context
/-!
What is known of a method while its code is read in order: the exceptions thrown, the regions that
catch them, the throws clause and the call just made. A class that cannot be resolved is remarked on
and the event it would have caused is left out.
-/
namespace ExceptionFlow

structure FlowLog where
  events : List ThrowEvent := []
  regions : List GuardedRegion := []
  declared : ThrowsClause := {}
  /-- Owner and name of the method called right before. -/
  lastCall : Option (ClassName × String) := none
  deriving DecidableEq

namespace FlowLog

def isEmpty (flow : FlowLog) : Bool :=
  flow.events.isEmpty && flow.regions.isEmpty && flow.declared.isEmpty && flow.lastCall.isNone

def forgetCall (flow : FlowLog) : FlowLog :=
  { flow with lastCall := none }

def addDeclared (flow : FlowLog) (clause : ThrowsClause) : FlowLog :=
  { flow with declared := flow.declared.merge clause }

def addEvent (flow : FlowLog) (event : ThrowEvent) : Action FlowLog := do
  Action.log (.thrown event)
  return { flow with events := flow.events ++ [event] }

/-- The call right before, if it hands on the exception that is thrown now. Such calls are known
only along superclasses. -/
def idiomCall? (flow : FlowLog) (context : Context) : Option (ClassName × String) :=
  flow.lastCall.filter fun call => context.usesHierarchy && context.config.isIdiom call.1 call.2

/-- A throw of a resolved class. Along superclasses, only checked exceptions count. -/
def addThrow (flow : FlowLog) (context : Context) (event : ThrowEvent) : Action FlowLog :=
  if context.usesHierarchy && !event.exception.canBeThrown then do
    Action.log (.nonExceptionThrow event.exception.name event.offset)
    return flow
  else if context.usesHierarchy && event.exception.isUnchecked then do
    Action.log (.uncheckedThrow event.exception.name event.offset)
    return flow
  else flow.addEvent event

/-- A throw of a named class. -/
def addNamedThrow (flow : FlowLog) (context : Context) (name : ClassName) (offset : Nat) :
    Action FlowLog := do
  match ← context.resolveOrRemark name with
  | none => return flow
  | some exception => flow.addThrow context { exception, offset }

/-- A throw instruction whose operand has the stack signature `stackTop`. -/
def recordThrow (flow : FlowLog) (context : Context) (stackTop : Option String) (offset : Nat) :
    Action FlowLog :=
  match stackTop.bind ClassName.ofSignature?, flow.idiomCall? context with
  | none, _ => do
    Action.log (.untypedThrow offset)
    return flow.forgetCall
  | some name, some (owner, method) => do
    Action.log (.idiomThrow name offset owner method)
    return flow.forgetCall
  | some name, none => flow.forgetCall.addNamedThrow context name offset

/-- One event for each name that can be resolved. -/
def addEvents (flow : FlowLog) (context : Context) (offset : Nat) :
    List ClassName → Action FlowLog
  | [] => return flow
  | name :: names => do
    match ← context.resolveOrRemark name with
    | none => flow.addEvents context offset names
    | some exception => do
      let next ← flow.addEvent { exception, offset }
      next.addEvents context offset names

/-- A call of a known method: the checked exceptions it declares are thrown at the call site. -/
def addCallee (flow : FlowLog) (context : Context) (callee : Callee) (offset : Nat) :
    Action FlowLog := do
  let clause ← callee.method.readThrowsClause
  let checked ← context.withoutUnchecked clause
  let next ← flow.addEvents context offset checked.entries
  return { next with lastCall := some (callee.owner, callee.method.name) }

/-- A call instruction. -/
def recordCall (flow : FlowLog) (context : Context) (target : CallTarget) (dispatch : Dispatch)
    (offset : Nat) : Action FlowLog :=
  if target.hasArrayOwner then return flow.forgetCall
  else
    match Callee.resolve context.source target dispatch with
    | .ok (some callee) => flow.forgetCall.addCallee context callee offset
    | .ok none => do
      Action.log (.undeclaredCall target dispatch)
      return flow.forgetCall
    | .error cause => do
      Action.log (.unresolvedCall target cause)
      Action.remark (.ofFailure (.lookingUp target.owner cause) cause)
      return flow.forgetCall

/-- What a row of the exception table catches. A class that cannot be resolved stands for itself. -/
def caughtBy (context : Context) (entry : TableEntry) : Action Caught :=
  match entry.catchType with
  | none => return .any
  | some name => do
    let lineage ← context.resolveOrRemark name
    return .type (lineage.getD (.singleton name))

/-- A row of the exception table. -/
def recordEntry (flow : FlowLog) (context : Context) (entry : TableEntry) : Action FlowLog := do
  let caught ← caughtBy context entry
  let region : GuardedRegion :=
    { caught, start := entry.start, stop := entry.stop, handler := entry.handler }
  Action.log (.guarded region)
  return { flow with regions := flow.regions ++ [region] }

/-- Checks the latest region for a dead catch variable. -/
def checkLastRegion (flow : FlowLog) (context : Context) (body : MethodBody) : Action FlowLog :=
  match context.deadCatchTest?, flow.regions.getLast? with
  | some isLive, some region => do
    let region ← Liveness.checkRegion isLive body region
    return { flow with regions := flow.regions.dropLast ++ [region] }
  | _, _ => return flow

/-- An instruction. A cast keeps the call before it in mind; all others that neither throw nor call
forget it. -/
def recordInstruction (flow : FlowLog) (context : Context) (instruction : Instruction) :
    Action FlowLog :=
  match instruction.kind with
  | .athrow stackTop => flow.recordThrow context stackTop instruction.offset
  | .invoke target dispatch => flow.recordCall context target dispatch instruction.offset
  | .checkCast target => do
    Action.log (.checkCast target instruction.offset)
    return flow
  | _ => return flow.forgetCall

/-- Settles all events. The events that escape come with the regions as they are marked then. -/
def settle (flow : FlowLog) : Action (List ThrowEvent × FlowLog) := do
  let settled := Coverage.settleAll flow.declared flow.events flow.regions
  settled.1.forM fun entry => Action.log (.settled entry.1 entry.2)
  return (Coverage.escaped settled.1, { flow with regions := settled.2 })

end FlowLog

end ExceptionFlow
