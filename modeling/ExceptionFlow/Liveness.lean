import ExceptionFlow.Action
/-!
Is a local variable read again? Handlers that store the caught exception into a variable which is
never read swallow it silently, and such regions are marked.
-/
namespace ExceptionFlow

/-- Tells whether `slot` is read after the instruction at `offset`. -/
abbrev Liveness := MethodBody → (offset slot : Nat) → Except Failure Bool

namespace Liveness

/-- The first instruction that reads the slot, writes it or leaves the method decides. -/
def readFirst (slot : Nat) : List Instruction → Bool
  | [] => false
  | instruction :: rest =>
    match instruction.kind with
    | .load read => read = slot || readFirst slot rest
    | .store written => written ≠ slot && readFirst slot rest
    | .ret => false
    | .athrow _ => false
    | _ => readFirst slot rest

/-- Follows the code in a straight line, for methods of at most `limit` instructions. -/
def linear (limit : Nat) : Liveness := fun body offset slot =>
  if body.codeLength > limit then .error (.unprofitable body.label)
  else
    match body.indexOf? offset with
    | none =>
      .error (.malformed none s!"No instruction at offset {Text.hex offset} in {body.label}")
    | some index => .ok (readFirst slot (body.code.drop (index + 1)))

/-- The slot into which a handler stores the caught exception first of all. -/
def handlerSlot? (body : MethodBody) (handler : Nat) : Option Nat :=
  match (body.indexOf? handler).bind fun index => body.code[index]? with
  | some { kind := .store slot, .. } => some slot
  | _ => none

/-- Marks a region whose handler stores the exception into a variable that is never read. A
failure of the liveness test leaves the region as it is. -/
def checkRegion (isLive : Liveness) (body : MethodBody) (region : GuardedRegion) :
    Action GuardedRegion :=
  match handlerSlot? body region.handler with
  | none => pure region
  | some slot =>
    match isLive body region.handler slot with
    | .ok true => pure { region with deadVariable := false }
    | .ok false => do
      Action.log (.deadStore body.label region slot)
      return { region with deadVariable := true }
    | .error (.unprofitable _) => do
      Action.remark (.skippedAnalysis body.className (body.method.name ++ body.method.descriptor))
      return region
    | .error cause => do
      Action.remark (.mishap (.checkingDeadStore body.label cause))
      return region

end Liveness

end ExceptionFlow
