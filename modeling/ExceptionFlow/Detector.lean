import ExceptionFlow.FlowLog
/-!
The detector takes one method at a time from `start` over its exception table and its code to
`finish`, where the exceptions that escape become findings. Whole methods and classes can be handed
over as well.
-/
namespace ExceptionFlow

inductive Phase where
  | idle
  | scanning
  | reconciling
  deriving DecidableEq

def Phase.text : Phase → String
  | idle => "idle"
  | scanning => "scanning"
  | reconciling => "reconciling"

instance : ToString Phase := ⟨Phase.text⟩

structure Detector where
  phase : Phase := .idle
  current : Option MethodBody := none
  flow : FlowLog := {}
  deriving DecidableEq

/-- How many methods were analysed and how many findings they have. -/
structure Tally where
  methods : Nat := 0
  findings : Nat := 0
  deriving DecidableEq

instance : Add Tally where
  add first second :=
    { methods := first.methods + second.methods, findings := first.findings + second.findings }

/-- The result of an operation and the detector after it. -/
structure Reply (α : Type) where
  result : Except Failure α
  detector : Detector

namespace Detector

/-- The detector without the method in progress. -/
def reset (_ : Detector) : Detector := {}

/-- An operation that changed nothing. -/
def refuse {α : Type} (detector : Detector) (failure : Failure) : Reply α :=
  { result := .error failure, detector }

/-- The method in progress, which the named operation needs. -/
def inProgress (detector : Detector) (operation : String) : Except Failure MethodBody :=
  match detector.phase, detector.current with
  | .scanning, some body => .ok body
  | phase, _ => .error (.invalidState s!"{operation} while {phase}")

/-- Starts a method and takes down its throws clause. -/
def start (detector : Detector) (body : MethodBody) : Action (Reply Unit) :=
  if detector.phase = .idle then do
    Action.log (.begun body.label)
    let clause ← body.method.readThrowsClause
    let flow := detector.flow.addDeclared clause
    return { result := .ok (), detector := { phase := .scanning, current := some body, flow } }
  else
    return detector.refuse (.invalidState s!"begin_method({body.label}) while {detector.phase}")

/-- Takes down a row of the exception table and checks it for a dead catch variable. -/
def addEntry (detector : Detector) (context : Context) (entry : TableEntry) :
    Action (Reply Unit) :=
  match detector.inProgress "visit_exception_entry" with
  | .error failure => return detector.refuse failure
  | .ok body => do
    let recorded ← detector.flow.recordEntry context entry
    let flow ← recorded.checkLastRegion context body
    return { result := .ok (), detector := { detector with flow } }

/-- Takes down an instruction, which has to lie within the method in progress. -/
def step (detector : Detector) (context : Context) (instruction : Instruction) :
    Action (Reply Unit) :=
  match detector.inProgress "visit_instruction" with
  | .error failure => return detector.refuse failure
  | .ok body =>
    if body.spans instruction.offset then do
      let flow ← detector.flow.recordInstruction context instruction
      return { result := .ok (), detector := { detector with flow } }
    else
      let place := s!"Instruction at {Text.hex instruction.offset} lies outside {body.label}"
      return detector.refuse (.malformed none place)

/-- Settles the events of the method in progress. Those that escape are its findings. -/
def reconcile (detector : Detector) (body : MethodBody) : Action (Batch × Detector) := do
  let (escaped, flow) ← detector.flow.settle
  let batch := Batch.ofBody body
    (escaped.map fun event => .ofBody body event.offset event.exception.name)
  let unmatched := flow.regions.countP fun region => !region.covered
  let dead := flow.regions.countP fun region => region.deadVariable
  Action.log (.methodDone body.label flow.events.length batch.size unmatched dead)
  return (batch, { detector with phase := .reconciling, flow })

/-- Ends the method in progress and hands over its findings. The detector is idle again even if they
are not taken. -/
def finish (detector : Detector) (context : Context) : Action (Reply Nat) :=
  match detector.inProgress "end_method" with
  | .error failure => return detector.refuse failure
  | .ok body => do
    let (batch, reconciled) ← detector.reconcile body
    Action.emit (.flush batch (context.accept batch))
    return {
      result := (context.accept batch).map fun _ => batch.size
      detector := reconciled.reset }

/-- Applies an operation to each item and stops at the first failure. -/
def forEach {α : Type} (detector : Detector) (operation : Detector → α → Action (Reply Unit)) :
    List α → Action (Reply Unit)
  | [] => return { result := .ok (), detector }
  | item :: items => do
    let reply ← operation detector item
    match reply.result with
    | .error _ => return reply
    | .ok () => reply.detector.forEach operation items

/-- Starts a method and takes down its exception table and its code. -/
def scan (detector : Detector) (context : Context) (body : MethodBody) : Action (Reply Unit) := do
  let started ← detector.start body
  match started.result with
  | .error _ => return started
  | .ok () => do
    let entered ← started.detector.forEach (addEntry · context) body.handlers
    match entered.result with
    | .error _ => return entered
    | .ok () => entered.detector.forEach (step · context) body.code

/-- Takes a whole method from start to finish. A method without code has no findings; a method that
cannot be scanned is abandoned. -/
def runMethod (detector : Detector) (context : Context) (body : MethodBody) :
    Action (Reply Nat) :=
  if body.method.hasCode then do
    let scanned ← detector.scan context body
    match scanned.result with
    | .error failure => return { result := .error failure, detector := scanned.detector.reset }
    | .ok () => scanned.detector.finish context
  else do
    Action.log (.noCode body.label)
    return { result := .ok 0, detector }

/-- Takes the methods with code one after another up to the first failure. -/
def runMethods (detector : Detector) (context : Context) (tally : Tally) :
    List MethodBody → Action (Reply Tally)
  | [] => return { result := .ok tally, detector }
  | body :: bodies =>
    if body.method.hasCode then do
      let reply ← detector.runMethod context body
      match reply.result with
      | .error failure => return reply.detector.refuse failure
      | .ok findings =>
        reply.detector.runMethods context (tally + { methods := 1, findings }) bodies
    else detector.runMethods context tally bodies

def runClass (detector : Detector) (context : Context) (cls : ClassBody) : Action (Reply Tally) :=
  detector.runMethods context {} cls.methods

/-- Takes the classes one after another up to the first failure. -/
def runClasses (detector : Detector) (context : Context) (tally : Tally) :
    List ClassBody → Action (Reply Tally)
  | [] => return { result := .ok tally, detector }
  | cls :: classes => do
    let reply ← detector.runClass context cls
    match reply.result with
    | .error failure => return reply.detector.refuse failure
    | .ok found => reply.detector.runClasses context (tally + found) classes

end Detector

/-- Analyses all classes of a program with a detector of its own. -/
def analyze (context : Context) (classes : List ClassBody) : Action (Except Failure Tally) := do
  let reply ← Detector.runClasses {} context {} classes
  match reply.result with
  | .error failure => return .error failure
  | .ok tally => do
    Action.log (.programDone tally.methods classes.length tally.findings)
    return .ok tally

end ExceptionFlow
