import ExceptionFlow.Operation
import ExceptionFlow.Proofs.MethodRun
/-!
What one operation comes to. Between operations a detector is new or in the middle of a method, and
from there every operation has few ways to end: what the reply is, what the detector is afterwards
and what was handed over. What holds along all operations is shown way by way.
-/
namespace ExceptionFlow

/-- The operation needs a method in progress. -/
def Operation.needsMethod : Operation → Bool
  | .addEntry _ | .step _ | .finish => true
  | _ => false

namespace Detector

/-- The detector is new or in the middle of a method. -/
inductive Settled : Detector → Prop where
  | idle : Settled {}
  | scanning (body : MethodBody) (flow : FlowLog) : Settled (scanning body flow)

section Ways

variable (context : Context)
  (raises : Option (ClassName × String) → Instruction → List ThrowEvent → Prop)

/-- What handing over a whole method with code comes to. A busy detector refuses it, and the method
in progress is lost. -/
inductive Handed (detector : Detector) (body : MethodBody) (reply : Reply Nat)
    (flushes : List Flush) : Prop where
  | ran (hdetector : detector = {}) (hran : Ran context raises body reply flushes)
  | busy {current : MethodBody} {flow : FlowLog} {failure : Failure}
      (hdetector : detector = scanning current flow)
      (hreply : reply = ({} : Detector).refuse failure) (hflushes : flushes = [])

/-- The same for methods one after another, up to the first one that fails. -/
inductive HandedAll : Detector → Tally → List MethodBody → Reply Tally → List Flush → Prop where
  | nil {detector : Detector} {tally : Tally} :
      HandedAll detector tally [] { result := .ok tally, detector } []
  | skip {detector : Detector} {tally : Tally} {body : MethodBody} {bodies : List MethodBody}
      {reply : Reply Tally} {flushes : List Flush} (hcode : body.method.hasCode = false)
      (hrest : HandedAll detector tally bodies reply flushes) :
      HandedAll detector tally (body :: bodies) reply flushes
  | failed {detector : Detector} {tally : Tally} {body : MethodBody} {bodies : List MethodBody}
      {reply : Reply Nat} {failure : Failure} {flushes : List Flush}
      (hcode : body.method.hasCode = true)
      (hbody : Handed context raises detector body reply flushes)
      (hresult : reply.result = .error failure) :
      HandedAll detector tally (body :: bodies) (({} : Detector).refuse failure) flushes
  | passed {detector : Detector} {tally : Tally} {body : MethodBody} {bodies : List MethodBody}
      {first : Reply Nat} {findings : Nat} {reply : Reply Tally} {flushes more : List Flush}
      (hcode : body.method.hasCode = true)
      (hbody : Handed context raises detector body first flushes)
      (hresult : first.result = .ok findings)
      (hrest : HandedAll {} (tally + { methods := 1, findings }) bodies reply more) :
      HandedAll detector tally (body :: bodies) reply (flushes ++ more)

/-- What an operation comes to, when each instruction raises events like this. -/
inductive Performs (detector : Detector) : Operation → Reply Answer → List Flush → Prop where
  | started {body : MethodBody} (hdetector : detector = {}) :
      Performs detector (.start body)
        { result := .ok .done, detector := scanning body (startLog body) } []
  | startedTwice {body current : MethodBody} {flow : FlowLog} {failure : Failure}
      (hdetector : detector = scanning current flow) :
      Performs detector (.start body) (detector.refuse failure) []
  | outOfPlace {operation : Operation} {failure : Failure} (hdetector : detector = {})
      (hneeds : operation.needsMethod = true) :
      Performs detector operation (detector.refuse failure) []
  | entered {entry : TableEntry} {body : MethodBody} {flow : FlowLog}
      {regions : List GuardedRegion} (hdetector : detector = scanning body flow)
      (hregions : regions.map GuardedRegion.row =
        flow.regions.map GuardedRegion.row ++ [entry]) :
      Performs detector (.addEntry entry)
        { result := .ok .done, detector := scanning body { flow with regions } } []
  | stepped {instruction : Instruction} {body : MethodBody} {flow : FlowLog}
      {raised : List ThrowEvent} (hdetector : detector = scanning body flow)
      (hspans : body.spans instruction.offset = true)
      (hraised : raises flow.lastCall instruction raised) :
      Performs detector (.step instruction)
        { result := .ok .done
          detector := scanning body (flow.afterInstruction context instruction.kind raised) } []
  | strayed {instruction : Instruction} {body : MethodBody} {flow : FlowLog}
      (hdetector : detector = scanning body flow)
      (hspans : body.spans instruction.offset = false) :
      Performs detector (.step instruction) (detector.refuse (body.outside instruction)) []
  | finished {body : MethodBody} {flow : FlowLog} (hdetector : detector = scanning body flow) :
      Performs detector .finish
        { result := (context.accept (flow.batch body)).map fun _ =>
            .findings (flow.batch body).size
          detector := {} }
        [(flow.batch body, context.accept (flow.batch body))]
  | reset : Performs detector .reset { result := .ok .done, detector := {} } []
  | noCode {body : MethodBody} (hcode : body.method.hasCode = false) :
      Performs detector (.runMethod body) { result := .ok (.findings 0), detector } []
  | ranMethod {body : MethodBody} {reply : Reply Nat} {flushes : List Flush}
      (hcode : body.method.hasCode = true)
      (hbody : Handed context raises detector body reply flushes) :
      Performs detector (.runMethod body) (reply.map .findings) flushes
  | ranClass {cls : ClassBody} {reply : Reply Tally} {flushes : List Flush}
      (hmethods : HandedAll context raises detector {} cls.methods reply flushes) :
      Performs detector (.runClass cls) (reply.map .tally) flushes

end Ways

variable {context : Context} {inv : Memo → Prop} {answers : ClassName → Option Lineage → Prop}
  {raises : Option (ClassName × String) → Instruction → List ThrowEvent → Prop}
  {detector : Detector}

/-- A method that is handed over leaves no trace of itself, and none of a method that was in
progress. -/
theorem Handed.detector_eq {body : MethodBody} {reply : Reply Nat} {flushes : List Flush}
    (h : Handed context raises detector body reply flushes) : reply.detector = {} := by
  cases h with
  | ran _ hran => exact hran.detector_eq
  | busy _ hreply _ =>
      rw [hreply]
      rfl

theorem Handed.ran_of_new {body : MethodBody} {reply : Reply Nat} {flushes : List Flush}
    (h : Handed context raises {} body reply flushes) : Ran context raises body reply flushes := by
  cases h with
  | ran _ hran => exact hran
  | busy hdetector _ _ => cases hdetector

theorem HandedAll.detector_eq {tally : Tally} {bodies : List MethodBody} {reply : Reply Tally}
    {flushes : List Flush} (h : HandedAll context raises detector tally bodies reply flushes) :
    reply.detector = detector ∨ reply.detector = {} := by
  induction h with
  | nil => exact Or.inl rfl
  | skip _ _ ih => exact ih
  | failed => exact Or.inr rfl
  | passed _ _ _ _ ih => exact Or.inr (ih.elim id id)

/-- A method with code that is handed to a busy detector is refused, and the detector is new
again. -/
theorem runMethod_scanning (context : Context) (current : MethodBody) (flow : FlowLog)
    {body : MethodBody} (hcode : body.method.hasCode = true) :
    ∃ failure, (scanning current flow).runMethod context body =
      pure (({} : Detector).refuse failure) := by
  unfold runMethod scan start
  rw [if_pos hcode]
  exact ⟨_, rfl⟩

theorem runMethod_noCode (detector : Detector) (context : Context) {body : MethodBody}
    (hcode : body.method.hasCode = false) :
    (detector.runMethod context body).Yields { result := .ok 0, detector } [] := by
  unfold runMethod
  rw [hcode]
  exact (Action.Yields.log _).bind (Action.Yields.pure _)

theorem runMethod_handed (h : context.Resolves inv answers) (hsettled : detector.Settled)
    {body : MethodBody} (hcode : body.method.hasCode = true) :
    (detector.runMethod context body).Ensures inv
      (Handed context (context.Raised answers) detector body) := by
  cases hsettled with
  | idle => exact (runMethod_ran h hcode).mono fun _ _ hran => .ran rfl hran
  | scanning current flow =>
      obtain ⟨failure, hrun⟩ := runMethod_scanning context current flow hcode
      rw [hrun]
      exact Action.Ensures.pure (.busy rfl rfl rfl)

theorem runMethods_handedAll (h : context.Resolves inv answers) (hsettled : detector.Settled)
    (tally : Tally) (bodies : List MethodBody) :
    (detector.runMethods context tally bodies).Ensures inv
      (HandedAll context (context.Raised answers) detector tally bodies) := by
  induction bodies generalizing detector tally with
  | nil => exact Action.Ensures.pure .nil
  | cons body bodies ih =>
      unfold runMethods
      cases hcode : body.method.hasCode with
      | false => exact (ih hsettled tally).mono fun _ _ hrest => .skip hcode hrest
      | true =>
          refine Action.Ensures.bind (runMethod_handed h hsettled hcode) ?_
          rintro ⟨result, next⟩ flushes hbody
          obtain rfl : next = {} := hbody.detector_eq
          cases result with
          | error failure =>
              refine Action.Ensures.pure ?_
              rw [List.append_nil]
              exact .failed hcode hbody rfl
          | ok findings =>
              exact (ih .idle _).mono fun _ _ hrest => .passed hcode hbody rfl hrest

/-- From a settled detector, an operation ends in one of the ways it can end. -/
theorem apply_performs (h : context.Resolves inv answers) (hsettled : detector.Settled)
    (operation : Operation) :
    (detector.apply context operation).Ensures inv
      (Performs context (context.Raised answers) detector operation) := by
  cases operation with
  | start body =>
      cases hsettled with
      | idle => exact ((start_yields body).map _).ensures (.started rfl)
      | scanning => exact Action.Ensures.pure (Performs.startedTwice rfl)
  | addEntry entry =>
      cases hsettled with
      | idle => exact Action.Ensures.pure (Performs.outOfPlace rfl rfl)
      | scanning body flow =>
          refine Action.Quietly.bind (addEntry_quietly h body flow entry) ?_
          rintro _ ⟨regions, hregions, rfl⟩
          exact Action.Ensures.pure (.entered rfl hregions)
  | step instruction =>
      cases hsettled with
      | idle => exact Action.Ensures.pure (Performs.outOfPlace rfl rfl)
      | scanning body flow =>
          cases hspans : body.spans instruction.offset with
          | true =>
              refine Action.Quietly.bind (step_quietly h body flow instruction hspans) ?_
              rintro _ ⟨raised, hraised, rfl⟩
              exact Action.Ensures.pure (.stepped rfl hspans hraised)
          | false =>
              simp only [apply, step_stray context body flow instruction hspans]
              exact Action.Ensures.pure (Performs.strayed rfl hspans)
  | finish =>
      cases hsettled with
      | idle => exact Action.Ensures.pure (Performs.outOfPlace rfl rfl)
      | scanning body flow =>
          have hanswer : (({ result := (context.accept (flow.batch body)).map fun _ =>
              (flow.batch body).size, detector := {} } : Reply Nat).map Answer.findings) =
              { result := (context.accept (flow.batch body)).map fun _ =>
                  .findings (flow.batch body).size
                detector := {} } := by
            cases context.accept (flow.batch body) <;> rfl
          have hfinish := (finish_yields context body flow).map (Reply.map Answer.findings)
          rw [hanswer] at hfinish
          exact hfinish.ensures (.finished rfl)
  | reset => exact Action.Ensures.pure .reset
  | runMethod body =>
      cases hcode : body.method.hasCode with
      | false =>
          exact ((runMethod_noCode detector context hcode).map _).ensures (.noCode hcode)
      | true =>
          exact Action.Ensures.map (runMethod_handed h hsettled hcode) fun _ _ hbody =>
            .ranMethod hcode hbody
  | runClass cls =>
      exact Action.Ensures.map (runMethods_handedAll h hsettled {} cls.methods) fun _ _ hmethods =>
        .ranClass hmethods

end Detector

end ExceptionFlow
