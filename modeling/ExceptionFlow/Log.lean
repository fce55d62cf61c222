import ExceptionFlow.Body
import ExceptionFlow.Coverage
import ExceptionFlow.Listing
/-!
Log records: what the analysis tells about its steps while it runs.
-/
namespace ExceptionFlow

inductive LogLevel where
  | trace
  | debug
  | warn
  deriving DecidableEq

def LogLevel.text : LogLevel → String
  | trace => "TRACE"
  | debug => "DEBUG"
  | warn => "WARN"

inductive LogRecord where
  | malformedSignature (text : String) (fault : Signature.Fault)
  | malformedListing (fault : Listing.Fault)
  | resolved (lineage : Lineage)
  | unresolvedException (name : ClassName) (cause : Failure)
  | untypedThrow (offset : Nat)
  | idiomThrow (name : ClassName) (offset : Nat) (owner : ClassName) (method : String)
  | nonExceptionThrow (name : ClassName) (offset : Nat)
  | uncheckedThrow (name : ClassName) (offset : Nat)
  | thrown (event : ThrowEvent)
  | undeclaredCall (target : CallTarget) (dispatch : Dispatch)
  | unresolvedCall (target : CallTarget) (cause : Failure)
  | checkCast (target : ClassName) (offset : Nat)
  | guarded (region : GuardedRegion)
  | deadStore (label : String) (region : GuardedRegion) (slot : Nat)
  | settled (event : ThrowEvent) (coverage : Coverage)
  | begun (label : String)
  | noCode (label : String)
  | methodDone (label : String) (events findings unmatched dead : Nat)
  | programDone (methods classes findings : Nat)

namespace LogRecord

def level : LogRecord → LogLevel
  | malformedSignature .. | malformedListing .. | begun .. | methodDone .. | programDone .. =>
    .debug
  | unresolvedException .. | unresolvedCall .. => .warn
  | _ => .trace

/-- A missing class is named; any other cause is told in full. -/
def causeText : Failure → String
  | .typeNotFound missing => s!"missing {missing}"
  | cause => cause.message

def text : LogRecord → String
  | malformedSignature text fault =>
    let cause := Failure.malformed none fault.message
    s!"ignoring malformed method signature '{text}': {cause}"
  | malformedListing fault =>
    let cause := Failure.malformed none fault.message
    s!"ignoring malformed exceptions listing: {cause}"
  | resolved lineage =>
    s!"resolved {lineage.name} with {lineage.ancestors.length} ancestor(s)"
  | unresolvedException name cause =>
    s!"cannot resolve exception type {name}: {causeText cause}"
  | untypedThrow offset => s!"untyped throw at {Text.hex offset} skipped"
  | idiomThrow name offset owner method =>
    s!"throw of {name} at {Text.hex offset} re-throws via {owner}.{method}"
  | nonExceptionThrow name offset =>
    s!"throw of non-exception type {name} at {Text.hex offset} skipped"
  | uncheckedThrow name offset =>
    s!"unchecked throw of {name} at {Text.hex offset} skipped"
  | thrown event => s!"thrown {event.text}"
  | undeclaredCall target dispatch => s!"no declaration for {dispatch} call to {target}"
  | unresolvedCall target cause => s!"cannot resolve call to {target}: {causeText cause}"
  | checkCast target offset => s!"checkcast to {target} at {Text.hex offset}"
  | guarded region =>
    let range := s!"[{Text.hex region.start}, {Text.hex region.stop})"
    s!"catch region {range} -> {Text.hex region.handler} for {region.caught.text}"
  | deadStore label region slot =>
    let place := s!"dead slot {slot} at {Text.hex region.handler}"
    s!"{label}: caught {region.caught.text} stored into {place}"
  | settled event coverage => s!"{event.text}: {coverage.text}"
  | begun label => s!"analyzing {label}"
  | noCode label => s!"{label} has no code"
  | methodDone label events findings unmatched dead =>
    let events := s!"{events} event(s), {findings} finding(s)"
    s!"{label}: {events}, {unmatched} region(s) never matched, {dead} dead catch variable(s)"
  | programDone methods classes findings =>
    s!"analyzed {methods} method(s) in {classes} class(es), {findings} finding(s)"

end LogRecord

end ExceptionFlow
