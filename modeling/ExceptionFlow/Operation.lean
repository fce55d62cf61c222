import ExceptionFlow.Detector
/-!
Operations as data: everything that can be asked of a detector, in any order.
-/
namespace ExceptionFlow

inductive Operation where
  | start (body : MethodBody)
  | addEntry (entry : TableEntry)
  | step (instruction : Instruction)
  | finish
  | reset
  | runMethod (body : MethodBody)
  | runClass (cls : ClassBody)

/-- What an operation answers when it succeeds. -/
inductive Answer where
  | done
  | findings (count : Nat)
  | tally (tally : Tally)
  deriving DecidableEq

def Reply.map {α β : Type} (f : α → β) (reply : Reply α) : Reply β :=
  { result := reply.result.map f, detector := reply.detector }

namespace Detector

def apply (detector : Detector) (context : Context) : Operation → Action (Reply Answer)
  | .start body => do return (← detector.start body).map fun _ => .done
  | .addEntry entry => do return (← detector.addEntry context entry).map fun _ => .done
  | .step instruction => do return (← detector.step context instruction).map fun _ => .done
  | .finish => do return (← detector.finish context).map .findings
  | .reset => return { result := .ok .done, detector := detector.reset }
  | .runMethod body => do return (← detector.runMethod context body).map .findings
  | .runClass cls => do return (← detector.runClass context cls).map .tally

/-- Applies operations in order. A failed operation does not stop those after it. -/
def applyAll (detector : Detector) (context : Context) : List Operation → Action Detector
  | [] => return detector
  | operation :: operations => do
    let reply ← detector.apply context operation
    reply.detector.applyAll context operations

end Detector

end ExceptionFlow
