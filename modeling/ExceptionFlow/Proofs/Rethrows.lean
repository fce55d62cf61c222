import ExceptionFlow.Proofs.Deliveries
import ExceptionFlow.Proofs.Reading
import Mathlib.Data.List.TakeWhile
/-!
Throws that hand on the exception of the call before them. A log keeps one call in mind, and nearly
every instruction puts another one in its place or none. Which call that is can be told by looking
back over the instructions that were taken down: the last one of them, casts aside, has to be a call
that means a declaration.
-/
namespace ExceptionFlow

/-- An instruction that was taken down, and the context it was seen in. -/
structure Visit where
  context : Context
  instruction : Instruction

/-- The instruction is a call that means this method of this class. -/
def Visit.Calls (visit : Visit) (owner : ClassName) (method : String) : Prop :=
  ∃ target dispatch callee, visit.instruction.kind = .invoke target dispatch ∧
    target.hasArrayOwner = false ∧
    Callee.resolve visit.context.source target dispatch = .ok (some callee) ∧
    callee.owner = owner ∧ callee.method.name = method

/-- Casts aside, the visits end with a call that means this method of this class. -/
def EndsWithCall (visits : List Visit) (owner : ClassName) (method : String) : Prop :=
  ∃ visit, (visits.filter fun visit => !visit.instruction.isCast).getLast? = some visit ∧
    visit.Calls owner method

section LookingBack

variable {visits : List Visit} {visit : Visit} {owner : ClassName} {method : String}

theorem not_endsWithCall_nil : ¬ EndsWithCall [] owner method := by
  rintro ⟨visit, hvisit, -⟩
  cases hvisit

theorem endsWithCall_append_cast (hcast : visit.instruction.isCast = true) :
    EndsWithCall (visits ++ [visit]) owner method ↔ EndsWithCall visits owner method := by
  simp [EndsWithCall, hcast]

theorem endsWithCall_append (hcast : visit.instruction.isCast = false) :
    EndsWithCall (visits ++ [visit]) owner method ↔ visit.Calls owner method := by
  simp [EndsWithCall, hcast]

theorem Visit.calls_invoke {context : Context} {offset : Nat} {target : CallTarget}
    {dispatch : Dispatch} :
    (⟨context, ⟨offset, .invoke target dispatch⟩⟩ : Visit).Calls owner method ↔
      ((context.callee? target dispatch).map fun callee => (callee.owner, callee.method.name)) =
        some (owner, method) := by
  simp only [Option.map_eq_some_iff, Context.callee?_eq_some_iff, Prod.mk.injEq]
  constructor
  · rintro ⟨_, _, callee, ⟨⟩, harray, hresolve, hnames⟩
    exact ⟨callee, ⟨harray, hresolve⟩, hnames⟩
  · rintro ⟨callee, ⟨harray, hresolve⟩, hnames⟩
    exact ⟨target, dispatch, callee, rfl, harray, hresolve, hnames⟩

end LookingBack

namespace FlowLog

variable {context : Context} {visits : List Visit}

/-- The log keeps the call in mind that looking back over the visits finds. -/
def Recalls (flow : FlowLog) (visits : List Visit) : Prop :=
  ∀ owner method, flow.lastCall = some (owner, method) ↔ EndsWithCall visits owner method

theorem Recalls.of_lastCall_eq {flow next : FlowLog} (h : flow.Recalls visits)
    (hsame : next.lastCall = flow.lastCall) : next.Recalls visits := by
  unfold Recalls
  rw [hsame]
  exact h

theorem Recalls.afterInstruction {flow : FlowLog} (h : flow.Recalls visits)
    (instruction : Instruction) (raised : List ThrowEvent) :
    (flow.afterInstruction context instruction.kind raised).Recalls
      (visits ++ [⟨context, instruction⟩]) := by
  intro owner method
  obtain ⟨offset, kind⟩ := instruction
  change context.callAfter flow.lastCall kind = some (owner, method) ↔ _
  cases kind with
  | checkCast target =>
      rw [endsWithCall_append_cast rfl]
      exact h owner method
  | invoke target dispatch =>
      rw [endsWithCall_append rfl, Visit.calls_invoke]
      rfl
  | _ =>
      rw [endsWithCall_append rfl]
      simp [Context.callAfter, Visit.Calls]

end FlowLog

/-- The visits since the method in progress was started, after an operation that succeeded. -/
def Operation.visitsAfter (operation : Operation) (context : Context) (visits : List Visit) :
    List Visit :=
  match operation with
  | .start _ => []
  | .step instruction => visits ++ [⟨context, instruction⟩]
  | _ => visits

/-- The same after any operation. A refused one adds nothing, and where no method is in progress
there is nothing to look back on. -/
def Turn.visitsAfter (turn : Turn) (reply : Reply Answer) (visits : List Visit) : List Visit :=
  match reply.detector.current, reply.result with
  | none, _ => []
  | some _, .error _ => visits
  | some _, .ok _ => turn.operation.visitsAfter turn.context visits

namespace Detector

variable {context : Context} {detector : Detector} {visits : List Visit}

/-- The same after several turns. -/
def visitsAfter (detector : Detector) (visits : List Visit) : List Turn → List Visit
  | [] => visits
  | turn :: turns =>
    let reply := ((detector.apply turn.context turn.operation).run turn.memo).value
    reply.detector.visitsAfter (turn.visitsAfter reply visits) turns

/-- The detector is new, or its log keeps the call in mind that looking back finds. -/
inductive Recalls (visits : List Visit) : Detector → Prop where
  | idle (hvisits : visits = []) : Recalls visits {}
  | scanning {body : MethodBody} {flow : FlowLog} (hflow : flow.Recalls visits) :
      Recalls visits (scanning body flow)

theorem recalls_startLog (body : MethodBody) : (startLog body).Recalls [] := by
  intro owner method
  simp [startLog, not_endsWithCall_nil]

theorem run_step_scanning (context : Context) (body : MethodBody) (flow : FlowLog)
    (instruction : Instruction) (hspans : body.spans instruction.offset = true) (memo : Memo) :
    ((scanning body flow).step context instruction).run memo =
      { value :=
          { result := .ok ()
            detector := scanning body
              ((flow.recordInstruction context instruction).run memo).value }
        memo := ((flow.recordInstruction context instruction).run memo).memo
        emitted := ((flow.recordInstruction context instruction).run memo).emitted } := by
  unfold step
  simp only [inProgress_scanning, hspans, if_true, Action.run_bind, Action.run_pure,
    List.append_nil]
  rfl

theorem Recalls.settled (h : detector.Recalls visits) : detector.Settled := by
  cases h with
  | idle => exact .idle
  | scanning => exact .scanning _ _

theorem Recalls.of_kept (h : detector.Recalls visits) {turn : Turn} {reply : Reply Answer}
    (hkept : reply.detector = detector ∨ reply.detector = {})
    (hadds : turn.operation.visitsAfter turn.context visits = visits) :
    reply.detector.Recalls (turn.visitsAfter reply visits) := by
  obtain ⟨result, next⟩ := reply
  rcases hkept with hsame | hempty
  · obtain rfl : next = detector := hsame
    cases h with
    | idle => exact .idle rfl
    | scanning hflow =>
        cases result with
        | error failure => exact .scanning hflow
        | ok answer =>
            unfold Turn.visitsAfter
            rw [hadds]
            exact .scanning hflow
  · obtain rfl : next = {} := hempty
    exact .idle rfl

/-- One operation keeps the call in mind that looking back finds. -/
theorem Performs.recalls
    {raises : Option (ClassName × String) → Instruction → List ThrowEvent → Prop}
    (h : detector.Recalls visits) {turn : Turn} {reply : Reply Answer} {flushes : List Flush}
    (hperforms : Performs turn.context raises detector turn.operation reply flushes) :
    reply.detector.Recalls (turn.visitsAfter reply visits) := by
  obtain ⟨operation, context, memo⟩ := turn
  cases hperforms with
  | started => exact .scanning (recalls_startLog _)
  | startedTwice hdetector | strayed hdetector =>
      subst hdetector
      cases h with
      | scanning hflow => exact .scanning hflow
  | outOfPlace hdetector _ =>
      subst hdetector
      exact .idle rfl
  | entered hdetector _ =>
      subst hdetector
      cases h with
      | scanning hflow => exact .scanning (hflow.of_lastCall_eq rfl)
  | stepped hdetector _ _ =>
      subst hdetector
      cases h with
      | scanning hflow => exact .scanning (hflow.afterInstruction _ _)
  | finished | reset => exact .idle rfl
  | noCode => exact h.of_kept (Or.inl rfl) rfl
  | ranMethod _ hbody => exact h.of_kept (Or.inr hbody.detector_eq) rfl
  | ranClass hmethods => exact h.of_kept hmethods.detector_eq rfl

theorem apply_recalls (h : detector.Recalls visits) (turn : Turn) :
    let reply := ((detector.apply turn.context turn.operation).run turn.memo).value
    reply.detector.Recalls (turn.visitsAfter reply visits) := by
  obtain ⟨-, hperforms⟩ :=
    apply_performs turn.context.resolves_named h.settled turn.operation turn.memo trivial
  exact hperforms.recalls h

theorem session_recalls (h : detector.Recalls visits) (turns : List Turn) :
    (detector.session turns).1.Recalls (detector.visitsAfter visits turns) := by
  induction turns generalizing detector visits with
  | nil => exact h
  | cons turn turns ih => exact ih (apply_recalls h turn)

end Detector

/-- The log says that a throw hands on the exception of the call before it. -/
def Emission.isRethrow : Emission → Bool
  | .log (.idiomThrow ..) => true
  | _ => false

/-- A throw was passed over as one that hands on the exception of the call before it. -/
def Outcome.rethrows {α : Type} (outcome : Outcome α) : Bool :=
  outcome.emitted.any Emission.isRethrow

namespace Context

theorem rethrows_resolve (context : Context) (name : ClassName) (memo : Memo) :
    ((context.resolve name).run memo).rethrows = false := by
  have hcase := context.resolve_cases memo name
  generalize (context.resolve name).run memo = outcome at hcase ⊢
  cases hcase <;> rfl

theorem rethrows_resolveOrRemark (context : Context) (name : ClassName) (memo : Memo) :
    ((context.resolveOrRemark name).run memo).rethrows = false := by
  have hresolve := context.rethrows_resolve name memo
  unfold Outcome.rethrows at hresolve ⊢
  unfold resolveOrRemark
  cases hvalue : ((context.resolve name).run memo).value <;>
    simp [hvalue, hresolve, Emission.isRethrow]

end Context

namespace FlowLog

variable {context : Context}

theorem rethrows_addNamedThrow (flow : FlowLog) (name : ClassName) (offset : Nat) (memo : Memo) :
    ((flow.addNamedThrow context name offset).run memo).rethrows = false := by
  have hresolve := context.rethrows_resolveOrRemark name memo
  unfold Outcome.rethrows at hresolve ⊢
  unfold addNamedThrow
  cases hvalue : ((context.resolveOrRemark name).run memo).value with
  | none => simp [hvalue, hresolve]
  | some exception =>
      simp only [Action.run_bind, hvalue, List.any_append, hresolve, Bool.false_or]
      unfold addThrow
      split
      · rfl
      · split <;> rfl

theorem recordThrow_handed (flow : FlowLog) {signature : String} {name : ClassName}
    (hname : ClassName.ofSignature? signature = some name) {call : ClassName × String}
    (hcall : flow.idiomCall? context = some call) (offset : Nat) :
    flow.recordThrow context (some signature) offset = (do
      Action.log (.idiomThrow name offset call.1 call.2)
      return flow.forgetCall) := by
  unfold recordThrow
  rw [Option.bind_some, hname, hcall]

theorem recordThrow_unhanded (flow : FlowLog) {signature : String} {name : ClassName}
    (hname : ClassName.ofSignature? signature = some name)
    (hcall : flow.idiomCall? context = none) (offset : Nat) :
    flow.recordThrow context (some signature) offset =
      flow.forgetCall.addNamedThrow context name offset := by
  unfold recordThrow
  rw [Option.bind_some, hname, hcall]

theorem Recalls.idiomCall?_eq_some_iff {flow : FlowLog} {visits : List Visit}
    (h : flow.Recalls visits) (owner : ClassName) (method : String) :
    flow.idiomCall? context = some (owner, method) ↔
      EndsWithCall visits owner method ∧ context.usesHierarchy = true ∧
        context.config.isIdiom owner method = true := by
  rw [idiomCall?, Option.filter_eq_some_iff, h owner method, Bool.and_eq_true]

end FlowLog

/-- Exceptions are compared along superclasses, and the visits end with a call of a method that
hands exceptions on. -/
def Context.HandsOnAfter (context : Context) (visits : List Visit) : Prop :=
  context.usesHierarchy = true ∧ ∃ owner method, EndsWithCall visits owner method ∧
    context.config.isIdiom owner method = true

namespace Detector

variable {context : Context}

/-- The detector without the call that it keeps in mind. -/
def forgetCall (detector : Detector) : Detector :=
  { detector with flow := detector.flow.forgetCall }

/-- What comes of a throw after these visits. Either it hands on the exception of the call before it
and nothing happens but that the call is forgotten, or all is as if no call had been kept in
mind. -/
structure ThrowsAfter (detector : Detector) (context : Context) (visits : List Visit)
    (throw : Instruction) (memo : Memo) : Prop where
  accepted : ((detector.step context throw).run memo).value.result = .ok ()
  rethrows_iff : ((detector.step context throw).run memo).rethrows = true ↔
    context.HandsOnAfter visits
  passedOver : context.HandsOnAfter visits →
    ((detector.step context throw).run memo).value.detector = detector.forgetCall ∧
      ((detector.step context throw).run memo).memo = memo
  lookedInto : ¬ context.HandsOnAfter visits →
    (detector.step context throw).run memo = (detector.forgetCall.step context throw).run memo

theorem throwsAfter_scanning {visits : List Visit} {body : MethodBody} {flow : FlowLog}
    (h : flow.Recalls visits) {offset : Nat} (hspans : body.spans offset = true)
    {signature : String} {name : ClassName}
    (hname : ClassName.ofSignature? signature = some name) (memo : Memo) :
    (scanning body flow).ThrowsAfter context visits ⟨offset, .athrow (some signature)⟩ memo := by
  have hhands : context.HandsOnAfter visits ↔ ∃ call, flow.idiomCall? context = some call := by
    simp only [Prod.exists, h.idiomCall?_eq_some_iff]
    constructor
    · rintro ⟨hmode, owner, method, hends, hidiom⟩
      exact ⟨owner, method, hends, hmode, hidiom⟩
    · rintro ⟨owner, method, hends, hmode, hidiom⟩
      exact ⟨hmode, owner, method, hends, hidiom⟩
  have hstep := fun log : FlowLog =>
    run_step_scanning context body log ⟨offset, .athrow (some signature)⟩ hspans memo
  cases hcall : flow.idiomCall? context with
  | some call =>
      have hhanded : context.HandsOnAfter visits := hhands.mpr ⟨call, hcall⟩
      have hpassed := hstep flow
      simp only [FlowLog.recordInstruction, flow.recordThrow_handed hname hcall, Action.run_bind,
        Action.run_log, Action.run_pure] at hpassed
      refine ⟨by rw [hpassed], ?_, fun _ => by rw [hpassed]; exact ⟨rfl, rfl⟩, absurd hhanded⟩
      rw [hpassed]
      exact ⟨fun _ => hhanded, fun _ => rfl⟩
  | none =>
      have hunhanded : ¬ context.HandsOnAfter visits := by
        rw [hhands, hcall]
        rintro ⟨call, ⟨⟩⟩
      have hsame : flow.recordThrow context (some signature) offset =
          flow.forgetCall.recordThrow context (some signature) offset := by
        rw [flow.recordThrow_unhanded hname hcall, flow.forgetCall.recordThrow_unhanded hname rfl]
        rfl
      have hrethrows : (((scanning body flow).step context
          ⟨offset, .athrow (some signature)⟩).run memo).rethrows = false := by
        rw [hstep flow]
        simp only [FlowLog.recordInstruction, flow.recordThrow_unhanded hname hcall]
        exact flow.forgetCall.rethrows_addNamedThrow name offset memo
      refine ⟨by rw [hstep flow], ?_, fun hhanded => absurd hhanded hunhanded, fun _ => ?_⟩
      · rw [hrethrows]
        exact ⟨(absurd · Bool.false_ne_true), fun hhanded => absurd hhanded hunhanded⟩
      · change _ = ((scanning body flow.forgetCall).step context _).run memo
        rw [hstep flow, hstep flow.forgetCall]
        simp only [FlowLog.recordInstruction, hsame]

end Detector

/-- A method as operations: its rows, its instructions up to the first one that lies outside it, and
its end. -/
def MethodBody.operations (body : MethodBody) : List Operation :=
  .start body :: (body.handlers.map .addEntry ++
    (body.inside.map .step ++
      [if body.stray?.isSome then .reset else .finish]))

namespace Detector

variable {context : Context}

theorem applyAll_addEntry (body : MethodBody) (flow : FlowLog) (entries : List TableEntry)
    (rest : List Operation) :
    (scanning body flow).applyAll context (entries.map .addEntry ++ rest) =
      flow.enterAll context body entries >>= fun next =>
        (scanning body next).applyAll context rest := by
  induction entries generalizing flow with
  | nil => rfl
  | cons entry entries ih =>
      unfold FlowLog.enterAll
      simp only [List.map_cons, List.cons_append, applyAll, apply, addEntry, inProgress_scanning,
        bind_assoc, pure_bind]
      congr
      funext recorded
      congr
      funext next
      exact ih next

theorem applyAll_step (body : MethodBody) (flow : FlowLog) {code : List Instruction}
    (hspans : ∀ instruction ∈ code, body.spans instruction.offset = true)
    (rest : List Operation) :
    (scanning body flow).applyAll context (code.map .step ++ rest) =
      flow.readAll context code >>= fun next => (scanning body next).applyAll context rest := by
  induction code generalizing flow with
  | nil => rfl
  | cons instruction code ih =>
      obtain ⟨hfirst, hrest⟩ := List.forall_mem_cons.mp hspans
      unfold FlowLog.readAll
      simp only [List.map_cons, List.cons_append, applyAll, apply, step, inProgress_scanning,
        hfirst, if_true, bind_assoc, pure_bind]
      congr
      funext next
      exact ih next hrest

theorem applyAll_start (body : MethodBody) (rest : List Operation) :
    ({} : Detector).applyAll context (.start body :: rest) =
      ({} : Detector).start body >>= fun _ =>
        (scanning body (startLog body)).applyAll context rest := by
  simp only [applyAll, apply, bind_assoc, pure_bind]
  refine Action.bind_congr_of_always ((start_yields body).ensures rfl) ?_
  rintro _ rfl
  rfl

/-- A whole method comes to the same as its operations one by one. -/
theorem map_runMethod (context : Context) {body : MethodBody} (hcode : body.method.hasCode = true) :
    Reply.detector <$> ({} : Detector).runMethod context body =
      ({} : Detector).applyAll context body.operations := by
  have hinside : ∀ instruction ∈ body.inside, body.spans instruction.offset = true :=
    List.all_eq_true.mp List.all_takeWhile
  unfold MethodBody.operations
  rw [runMethod_eq context hcode, applyAll_start]
  simp only [applyAll_addEntry, applyAll_step body _ hinside, Context.reading, map_bind, bind_assoc]
  refine bind_congr fun _ => bind_congr fun entered => bind_congr fun flow => ?_
  cases body.stray? with
  | some stray => rfl
  | none =>
      simp only [Option.isSome_none, Bool.false_eq_true, if_false, applyAll, apply, bind_assoc,
        pure_bind, map_eq_pure_bind]
      rfl

end Detector

open Detector

def causeContext : Context :=
  .new {} (Classpath.javaLang.insert
    { name := .throwable
      parent := some .object
      methods := [{ name := "initCause", descriptor := "()V" }] }).lookup fun _ => .ok ()

/-- A call that hands its exception on, and a cast of what it returns. In between come a row of the
exception table and an instruction that lies outside the method. -/
def causeTurns : List Turn :=
  [.start { guardedBody with code := [⟨0, .other⟩, ⟨9, .ret⟩] },
    .step ⟨0, .invoke ⟨.exception, "initCause", "()V"⟩ .virtual⟩, .addEntry guardedRow,
    .step ⟨20, .other⟩, .step ⟨3, .checkCast .exception⟩].map fun operation =>
      { operation, context := causeContext, memo := {} }

/-- Whatever is asked of a detector, and whatever others do in between, the call it keeps in mind is
the one that looking back over the instructions finds. So a throw of a class is passed over exactly
if exceptions are compared along superclasses and the code before it, casts aside, ends with a call
of a method that hands exceptions on. A whole method comes to the same as its operations one by
one. -/
theorem session_recalls_call (turns : List Turn) :
    let detector := (session {} turns).1
    let visits := visitsAfter {} [] turns
    (∀ owner method, detector.flow.lastCall = some (owner, method) ↔
        EndsWithCall visits owner method) ∧
      (∀ body context memo offset signature name, detector.current = some body →
        body.spans offset = true → ClassName.ofSignature? signature = some name →
        detector.ThrowsAfter context visits ⟨offset, .athrow (some signature)⟩ memo) ∧
      ∀ context body, detector.phase = .idle → body.method.hasCode = true →
        Reply.detector <$> detector.runMethod context body =
          detector.applyAll context body.operations := by
  have hrecalls : (session {} turns).1.Recalls (visitsAfter {} [] turns) :=
    session_recalls (.idle rfl) turns
  generalize (session {} turns).1 = detector at hrecalls ⊢
  generalize visitsAfter {} [] turns = visits at hrecalls ⊢
  cases hrecalls with
  | idle hvisits =>
      refine ⟨?_, nofun, fun context body _ hcode => map_runMethod context hcode⟩
      intro owner method
      simp [hvisits, not_endsWithCall_nil]
  | scanning hflow =>
      refine ⟨hflow, ?_, nofun⟩
      rintro body context memo offset signature name ⟨⟩ hspans hname
      exact throwsAfter_scanning hflow hspans hname memo

theorem session_recalls_call_cause :
    EndsWithCall (visitsAfter {} [] causeTurns) .throwable "initCause" ∧
      (((session {} causeTurns).1.step causeContext
        ⟨6, .athrow (some "Ljava/io/IOException;")⟩).run {}).rethrows = true ∧
      causeContext.HandsOnAfter (visitsAfter {} [] causeTurns) := by
  obtain ⟨hcall, hthrow, -⟩ := session_recalls_call causeTurns
  have hthrows := hthrow _ causeContext {} 6 "Ljava/io/IOException;" ⟨"java.io.IOException"⟩ rfl rfl
    (by decide)
  have hrethrows : (((session {} causeTurns).1.step causeContext
      ⟨6, .athrow (some "Ljava/io/IOException;")⟩).run {}).rethrows = true := by
    decide
  exact ⟨(hcall _ _).mp rfl, hrethrows, hthrows.rethrows_iff.mp hrethrows⟩

end ExceptionFlow
