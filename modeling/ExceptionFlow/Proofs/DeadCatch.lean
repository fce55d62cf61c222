import ExceptionFlow.Proofs.Lifecycle
import Mathlib.Data.List.Basic
/-!
Checking for dead catch variables influences nothing else. A blind context does without the check;
a run, with its marks and its words about dead variables erased, is the run in the blind context.
-/
namespace ExceptionFlow

def GuardedRegion.blind (region : GuardedRegion) : GuardedRegion :=
  { region with deadVariable := false }

def FlowLog.blind (flow : FlowLog) : FlowLog :=
  { flow with regions := flow.regions.map GuardedRegion.blind }

def Detector.blind (detector : Detector) : Detector :=
  { detector with flow := detector.flow.blind }

def Reply.blind {α : Type} (reply : Reply α) : Reply α :=
  { reply with detector := reply.detector.blind }

/-- What is left of an emission when nothing is known of dead catch variables. -/
def Emission.blind? : Emission → Option Emission
  | .log (.deadStore _ _ _) => none
  | .log (.methodDone label events findings unmatched _) =>
    some (.log (.methodDone label events findings unmatched 0))
  | .remark said => if said.isDeadCatch then none else some (.remark said)
  | emission => some emission

theorem Emission.blind?_of_isPlain {emission : Emission} (h : emission.isPlain = true) :
    emission.blind? = some emission := by
  cases emission with
  | log record =>
      cases record with
      | deadStore | methodDone => cases h
      | _ => rfl
  | remark said =>
      have hsaid : said.isDeadCatch = false := by simpa [isPlain] using h
      simp [blind?, hsaid]
  | flush batch verdict => rfl

/-- The context without the check and everything that concerns it alone. -/
def Context.blind (context : Context) : Context :=
  { context with
    config := { context.config with checkDeadCatch := false, maxLiveness := 0 }
    liveness := none }

namespace Action

variable {α β γ δ : Type}

/-- The action with its value erased by `f` and its emissions erased. -/
def blind (f : α → β) (action : Action α) : Action β := fun memo =>
  { value := f (action.run memo).value
    memo := (action.run memo).memo
    emitted := (action.run memo).emitted.filterMap Emission.blind? }

theorem blind_pure (f : α → β) (value : α) :
    (Pure.pure value : Action α).blind f = pure (f value) :=
  rfl

theorem blind_bind {f : α → β} {g : γ → δ} {action : Action α} {next : α → Action γ}
    {other : Action β} {last : β → Action δ} (hfirst : action.blind f = other)
    (hnext : ∀ value, (next value).blind g = last (f value)) :
    (action >>= next).blind g = other >>= last := by
  funext memo
  subst hfirst
  have hlast := congrFun (hnext (action.run memo).value) (action.run memo).memo
  change _ = ({ last (f (action.run memo).value) (action.run memo).memo with
    emitted := (action.run memo).emitted.filterMap Emission.blind? ++
      (last (f (action.run memo).value) (action.run memo).memo).emitted } : Outcome δ)
  rw [← hlast]
  simp [blind, run, bind]

theorem blind_log {record : LogRecord}
    (h : (Emission.log record).blind? = some (.log record)) :
    (Action.log record).blind id = Action.log record := by
  funext memo
  simp [blind, log, emit, run, h]

/-- Nothing is erased from what a plain action emits. -/
theorem blind_of_plainly {action : Action α} {post : α → Prop}
    (h : action.Plainly (fun _ => True) post) (f : α → β) : action.blind f = f <$> action := by
  funext memo
  obtain ⟨-, hplain, -⟩ := h memo trivial
  have hemitted : (action.run memo).emitted.filterMap Emission.blind? =
      (action.run memo).emitted := by
    have hkept := List.filterMap_congr fun emission hemission =>
      Emission.blind?_of_isPlain (hplain emission hemission)
    exact hkept.trans List.filterMap_some
  unfold blind
  rw [hemitted]
  exact (run_map f action memo).symm

end Action

namespace Context

/-- Recording does not ask for the check. -/
theorem checkedNames_context_blind (context : Context) (names : List ClassName) :
    context.blind.checkedNames names = context.checkedNames names := by
  induction names with
  | nil => rfl
  | cons name names ih =>
      unfold checkedNames
      rw [ih]
      rfl

theorem withoutUnchecked_context_blind (context : Context) (clause : ThrowsClause) :
    context.blind.withoutUnchecked clause = context.withoutUnchecked clause := by
  unfold withoutUnchecked
  rw [checkedNames_context_blind]
  rfl

end Context

theorem MethodDecl.readThrowsClause_blind (method : MethodDecl) :
    method.readThrowsClause.blind id = method.readThrowsClause := by
  rw [Action.blind_of_plainly method.readThrowsClause_plainly, id_map]

namespace FlowLog

theorem unseen_blind : Unseen FlowLog.blind where
  lastCall _ := rfl
  addAll _ _ := rfl
  calling _ _ := rfl

theorem addEvents_context_blind (flow : FlowLog) (context : Context) (offset : Nat)
    (names : List ClassName) :
    flow.addEvents context.blind offset names = flow.addEvents context offset names := by
  induction names generalizing flow with
  | nil => rfl
  | cons name names ih =>
      unfold addEvents
      simp only [ih]
      rfl

theorem recordInstruction_context_blind (flow : FlowLog) (context : Context)
    (instruction : Instruction) :
    flow.recordInstruction context.blind instruction =
      flow.recordInstruction context instruction := by
  obtain ⟨offset, kind⟩ := instruction
  cases kind with
  | invoke target dispatch =>
      simp only [recordInstruction, recordCall, addCallee, Context.withoutUnchecked_context_blind,
        addEvents_context_blind]
      rfl
  | _ => rfl

theorem recordInstruction_blind (flow : FlowLog) (context : Context) (instruction : Instruction) :
    (flow.recordInstruction context instruction).blind FlowLog.blind =
      flow.blind.recordInstruction context.blind instruction := by
  rw [recordInstruction_context_blind, unseen_blind.recordInstruction]
  exact Action.blind_of_plainly
    (flow.recordInstruction_plainly context.resolves_named instruction) _

theorem recordEntry_blind (flow : FlowLog) (context : Context) (entry : TableEntry) :
    (flow.recordEntry context entry).blind FlowLog.blind =
      flow.blind.recordEntry context.blind entry := by
  have hcontext : flow.blind.recordEntry context.blind entry =
      flow.blind.recordEntry context entry := rfl
  rw [hcontext, Action.blind_of_plainly (flow.recordEntry_plainly context.resolves_named entry)]
  simp [recordEntry, FlowLog.blind, GuardedRegion.blind]

theorem checkRegion_blind (isLive : Liveness) (body : MethodBody) (region : GuardedRegion) :
    (isLive.checkRegion body region).blind GuardedRegion.blind = pure region.blind := by
  unfold Liveness.checkRegion
  cases Liveness.handlerSlot? body region.handler with
  | none => rfl
  | some slot =>
      simp only
      cases isLive body region.handler slot with
      | ok live => cases live <;> rfl
      | error cause => cases cause <;> rfl

/-- All that the check leaves behind is a mark. -/
theorem checkLastRegion_blind (flow : FlowLog) (context : Context) (body : MethodBody) :
    (flow.checkLastRegion context body).blind FlowLog.blind =
      flow.blind.checkLastRegion context.blind body := by
  have hunchecked : flow.blind.checkLastRegion context.blind body = pure flow.blind := rfl
  rw [hunchecked]
  unfold checkLastRegion
  cases context.deadCatchTest? with
  | none => rfl
  | some isLive =>
      cases hlast : flow.regions.getLast? with
      | none => rfl
      | some region =>
          obtain ⟨before, hregions⟩ := List.getLast?_eq_some_iff.mp hlast
          calc
            _ = pure region.blind >>= fun checked =>
                pure { flow.blind with
                  regions := before.map GuardedRegion.blind ++ [checked] } := by
              refine Action.blind_bind (checkRegion_blind isLive body region) fun checked => ?_
              rw [Action.blind_pure]
              simp [FlowLog.blind, hregions]
            _ = pure flow.blind := by
              rw [pure_bind]
              simp [FlowLog.blind, hregions]

end FlowLog

namespace Coverage

theorem settle_blind (clause : ThrowsClause) (event : ThrowEvent) (regions : List GuardedRegion) :
    settle clause event (regions.map GuardedRegion.blind) =
      ((settle clause event regions).1,
        (settle clause event regions).2.map GuardedRegion.blind) := by
  have hindex : ((regions.map GuardedRegion.blind).findIdx? fun region => region.catches event) =
      regions.findIdx? fun region => region.catches event :=
    List.findIdx?_map
  unfold settle
  rw [hindex]
  cases regions.findIdx? fun region => region.catches event with
  | none => rfl
  | some index =>
      refine Prod.ext rfl ?_
      change (regions.map GuardedRegion.blind).modify index GuardedRegion.markCovered =
        (regions.modify index GuardedRegion.markCovered).map GuardedRegion.blind
      apply List.ext_getElem?
      intro place
      simp only [List.getElem?_map, List.getElem?_modify]
      by_cases heq : index = place <;>
        simp [heq, Function.comp_def, GuardedRegion.blind, GuardedRegion.markCovered]

theorem settleAll_blind (clause : ThrowsClause) (events : List ThrowEvent)
    (regions : List GuardedRegion) :
    settleAll clause events (regions.map GuardedRegion.blind) =
      ((settleAll clause events regions).1,
        (settleAll clause events regions).2.map GuardedRegion.blind) := by
  induction events generalizing regions with
  | nil => rfl
  | cons event events ih => simp only [settleAll, settle_blind, ih]

end Coverage

theorem FlowLog.settle_blind (flow : FlowLog) :
    flow.settle.blind (Prod.map id FlowLog.blind) = flow.blind.settle := by
  have hlogs : ∀ entries : List (ThrowEvent × Coverage),
      (entries.forM fun entry => Action.log (.settled entry.1 entry.2)).blind id =
        entries.forM fun entry => Action.log (.settled entry.1 entry.2) := by
    intro entries
    induction entries with
    | nil => rfl
    | cons entry entries ih => exact Action.blind_bind (Action.blind_log rfl) fun _ => ih
  have hsettled : Coverage.settleAll flow.blind.declared flow.blind.events flow.blind.regions =
      ((Coverage.settleAll flow.declared flow.events flow.regions).1,
        (Coverage.settleAll flow.declared flow.events flow.regions).2.map GuardedRegion.blind) :=
    Coverage.settleAll_blind flow.declared flow.events flow.regions
  unfold settle
  rw [hsettled]
  exact Action.blind_bind (hlogs _) fun _ => rfl

namespace Detector

theorem start_blind (detector : Detector) (body : MethodBody) :
    (detector.start body).blind Reply.blind = detector.blind.start body := by
  have hphase : detector.blind.phase = detector.phase := rfl
  unfold start
  rw [hphase]
  split
  · refine Action.blind_bind (Action.blind_log rfl) fun _ => ?_
    exact Action.blind_bind body.method.readThrowsClause_blind fun _ => rfl
  · rfl

theorem addEntry_blind (detector : Detector) (context : Context) (entry : TableEntry) :
    (detector.addEntry context entry).blind Reply.blind =
      detector.blind.addEntry context.blind entry := by
  have hbody : detector.blind.inProgress "visit_exception_entry" =
      detector.inProgress "visit_exception_entry" := rfl
  unfold addEntry
  rw [hbody]
  cases detector.inProgress "visit_exception_entry" with
  | error failure => rfl
  | ok body =>
      refine Action.blind_bind (detector.flow.recordEntry_blind context entry) fun recorded => ?_
      exact Action.blind_bind (recorded.checkLastRegion_blind context body) fun _ => rfl

theorem step_blind (detector : Detector) (context : Context) (instruction : Instruction) :
    (detector.step context instruction).blind Reply.blind =
      detector.blind.step context.blind instruction := by
  have hbody : detector.blind.inProgress "visit_instruction" =
      detector.inProgress "visit_instruction" := rfl
  unfold step
  rw [hbody]
  cases detector.inProgress "visit_instruction" with
  | error failure => rfl
  | ok body =>
      simp only
      split
      · exact Action.blind_bind (detector.flow.recordInstruction_blind context instruction)
          fun _ => rfl
      · rfl

theorem reconcile_blind (detector : Detector) (body : MethodBody) :
    (detector.reconcile body).blind (Prod.map id Detector.blind) =
      detector.blind.reconcile body := by
  refine Action.blind_bind detector.flow.settle_blind ?_
  rintro ⟨escaped, flow⟩
  have hunmatched : (flow.regions.map GuardedRegion.blind).countP (fun region => !region.covered) =
      flow.regions.countP fun region => !region.covered :=
    List.countP_map
  have hdead : (flow.regions.map GuardedRegion.blind).countP (fun region => region.deadVariable) =
      0 := by
    simp [List.countP_map, GuardedRegion.blind, Function.comp_def]
  simp only [Prod.map, FlowLog.blind, id, hunmatched, hdead]
  rfl

theorem finish_blind (detector : Detector) (context : Context) :
    (detector.finish context).blind Reply.blind = detector.blind.finish context.blind := by
  have hbody : detector.blind.inProgress "end_method" = detector.inProgress "end_method" := rfl
  unfold finish
  rw [hbody]
  cases detector.inProgress "end_method" with
  | error failure => rfl
  | ok body =>
      refine Action.blind_bind (detector.reconcile_blind body) ?_
      rintro ⟨batch, reconciled⟩
      exact Action.blind_bind (f := id) rfl fun _ => rfl

theorem forEach_blind {α : Type} {operation erased : Detector → α → Action (Reply Unit)}
    (h : ∀ detector item,
      (operation detector item).blind Reply.blind = erased detector.blind item)
    (detector : Detector) (items : List α) :
    (detector.forEach operation items).blind Reply.blind =
      detector.blind.forEach erased items := by
  induction items generalizing detector with
  | nil => rfl
  | cons item items ih =>
      refine Action.blind_bind (h detector item) ?_
      rintro ⟨result, next⟩
      cases result with
      | error failure => rfl
      | ok done => exact ih next

theorem scan_blind (detector : Detector) (context : Context) (body : MethodBody) :
    (detector.scan context body).blind Reply.blind = detector.blind.scan context.blind body := by
  refine Action.blind_bind (detector.start_blind body) ?_
  rintro ⟨started, detector⟩
  cases started with
  | error failure => rfl
  | ok done =>
      refine Action.blind_bind
        (forEach_blind (fun detector => detector.addEntry_blind context) detector body.handlers) ?_
      rintro ⟨entered, detector⟩
      cases entered with
      | error failure => rfl
      | ok done =>
          exact forEach_blind (fun detector => detector.step_blind context) detector body.code

theorem runMethod_blind (detector : Detector) (context : Context) (body : MethodBody) :
    (detector.runMethod context body).blind Reply.blind =
      detector.blind.runMethod context.blind body := by
  unfold runMethod
  split
  · refine Action.blind_bind (detector.scan_blind context body) ?_
    rintro ⟨scanned, detector⟩
    cases scanned with
    | error failure => rfl
    | ok done => exact detector.finish_blind context
  · exact Action.blind_bind (Action.blind_log rfl) fun _ => rfl

theorem runMethods_blind (detector : Detector) (context : Context) (tally : Tally)
    (bodies : List MethodBody) :
    (detector.runMethods context tally bodies).blind Reply.blind =
      detector.blind.runMethods context.blind tally bodies := by
  induction bodies generalizing detector tally with
  | nil => rfl
  | cons body bodies ih =>
      unfold runMethods
      split
      · refine Action.blind_bind (detector.runMethod_blind context body) ?_
        rintro ⟨result, next⟩
        cases result with
        | error failure => rfl
        | ok findings => exact ih next _
      · exact ih detector tally

theorem apply_blind (detector : Detector) (context : Context) (operation : Operation) :
    (detector.apply context operation).blind Reply.blind =
      detector.blind.apply context.blind operation := by
  cases operation with
  | start body => exact Action.blind_bind (detector.start_blind body) fun _ => rfl
  | addEntry entry => exact Action.blind_bind (detector.addEntry_blind context entry) fun _ => rfl
  | step instruction =>
      exact Action.blind_bind (detector.step_blind context instruction) fun _ => rfl
  | finish => exact Action.blind_bind (detector.finish_blind context) fun _ => rfl
  | reset => rfl
  | runMethod body => exact Action.blind_bind (detector.runMethod_blind context body) fun _ => rfl
  | runClass cls =>
      exact Action.blind_bind (detector.runMethods_blind context {} cls.methods) fun _ => rfl

theorem replies_blind (detector : Detector) (context : Context) (operations : List Operation) :
    (detector.replies context operations).blind (List.map Reply.blind) =
      detector.blind.replies context.blind operations := by
  induction operations generalizing detector with
  | nil => rfl
  | cons operation operations ih =>
      refine Action.blind_bind (detector.apply_blind context operation) fun reply => ?_
      exact Action.blind_bind (ih reply.detector) fun _ => rfl

end Detector

/-- The same classes, the same taker of batches and the same configuration, but for the check of
dead catch variables, which may be asked of different tests or not at all. -/
structure Context.SameButDeadCatch (context other : Context) : Prop where
  source : other.source = context.source
  accept : other.accept = context.accept
  config : other.config = { context.config with
    checkDeadCatch := other.config.checkDeadCatch
    maxLiveness := other.config.maxLiveness }

theorem Context.SameButDeadCatch.blind_eq {context other : Context}
    (h : context.SameButDeadCatch other) : context.blind = other.blind := by
  unfold blind
  rw [h.source, h.accept, h.config]

def Emission.remark? : Emission → Option Remark
  | .remark said => some said
  | _ => none

def Outcome.remarks {α : Type} (outcome : Outcome α) : List Remark :=
  outcome.emitted.filterMap Emission.remark?

/-- Two runs that differ in nothing but the marks of dead catch variables and what is said of
them. -/
structure Outcome.Agrees (outcome other : Outcome (List (Reply Answer))) : Prop where
  results : outcome.value.map Reply.result = other.value.map Reply.result
  detectors : (outcome.value.map fun reply => reply.detector.blind) =
    other.value.map fun reply => reply.detector.blind
  memo : outcome.memo = other.memo
  flushes : outcome.emitted.filterMap Emission.flush? = other.emitted.filterMap Emission.flush?
  missing : (outcome.remarks.filter fun said => said.notice.kind = .missingType) =
    other.remarks.filter fun said => said.notice.kind = .missingType
  remarks : (outcome.remarks.filter fun said => !said.isDeadCatch) =
    other.remarks.filter fun said => !said.isDeadCatch

theorem Emission.filterMap_blind {β : Type} {view : Emission → Option β}
    (hview : ∀ emission : Emission, view emission = emission.blind?.bind view)
    (emitted : List Emission) :
    (emitted.filterMap Emission.blind?).filterMap view = emitted.filterMap view := by
  rw [List.filterMap_filterMap, ← funext hview]

/-- Whatever can be seen in an erased emission is the same where the erased emissions are. -/
theorem Emission.filterMap_eq_of_blind {β : Type} {view : Emission → Option β}
    (hview : ∀ emission : Emission, view emission = emission.blind?.bind view)
    {emitted others : List Emission}
    (h : emitted.filterMap Emission.blind? = others.filterMap Emission.blind?) :
    emitted.filterMap view = others.filterMap view := by
  rw [← filterMap_blind hview emitted, ← filterMap_blind hview others, h]

/-- The remarks that the check does not make can be seen in an erased emission. -/
theorem Emission.filter_remark_blind {keep : Remark → Bool}
    (hkeep : ∀ said : Remark, said.isDeadCatch = true → keep said = false) (emission : Emission) :
    emission.remark?.filter keep =
      emission.blind?.bind fun left => left.remark?.filter keep := by
  cases emission with
  | log record => cases record <;> rfl
  | flush batch verdict => rfl
  | remark said =>
      cases hdead : said.isDeadCatch with
      | false => simp [Emission.blind?, hdead]
      | true => simp [Emission.blind?, Emission.remark?, hdead, hkeep said hdead]

theorem Outcome.filter_remarks_eq {outcome other : Outcome (List (Reply Answer))}
    (h : outcome.emitted.filterMap Emission.blind? = other.emitted.filterMap Emission.blind?)
    {keep : Remark → Bool} (hkeep : ∀ said : Remark, said.isDeadCatch = true → keep said = false) :
    outcome.remarks.filter keep = other.remarks.filter keep := by
  unfold remarks
  rw [List.filter_filterMap, List.filter_filterMap]
  exact Emission.filterMap_eq_of_blind (Emission.filter_remark_blind hkeep) h

/-- The check for dead catch variables influences nothing else: whatever is asked of a detector, it
replies the same with any test and without one, its states differ in marks only, and so do the memo,
the batches and the remarks but for those that the check makes. -/
theorem replies_agree (context other : Context) (h : context.SameButDeadCatch other)
    (detector : Detector) (memo : Memo) (operations : List Operation) :
    ((detector.replies context operations).run memo).Agrees
      ((detector.replies other operations).run memo) := by
  have herased : (detector.replies context operations).blind (List.map Reply.blind) =
      (detector.replies other operations).blind (List.map Reply.blind) := by
    rw [Detector.replies_blind, Detector.replies_blind, h.blind_eq]
  have hrun := congrFun herased memo
  have hreplies := congrArg Outcome.value hrun
  have hmemo := congrArg Outcome.memo hrun
  have hemitted := congrArg Outcome.emitted hrun
  constructor
  · simpa [Action.blind, Reply.blind, Function.comp_def] using
      congrArg (List.map Reply.result) hreplies
  · simpa [Action.blind, Reply.blind, Function.comp_def] using
      congrArg (List.map Reply.detector) hreplies
  · exact hmemo
  · refine Emission.filterMap_eq_of_blind ?_ hemitted
    intro emission
    cases emission with
    | log record => cases record <;> rfl
    | flush batch verdict => rfl
    | remark said =>
        cases hdead : said.isDeadCatch <;> simp [Emission.blind?, Emission.flush?, hdead]
  · refine Outcome.filter_remarks_eq hemitted ?_
    intro said hdead
    cases said <;> simp_all [Remark.isDeadCatch, Remark.notice, Notice.skippedAnalysis,
      Notice.recovered]
  · exact Outcome.filter_remarks_eq hemitted fun said hdead => by simp [hdead]

/-- A handler that stores the exception and never reads it. -/
def swallowingBody : MethodBody :=
  { className := ⟨"a.Service"⟩
    method := { name := "run", descriptor := "()V" }
    code := [⟨0, .athrow (some "Ljava/lang/Exception;")⟩, ⟨1, .store 1⟩, ⟨2, .ret⟩]
    handlers := [⟨0, 1, 1, some .exception⟩] }

def swallowingContext : Context :=
  .new {} Classpath.javaLang.lookup fun _ => .ok ()

/-- The test for liveness has no answers. -/
def silentContext : Context :=
  { swallowingContext with liveness := some fun _ _ _ => .error (.other "no answer") }

theorem replies_agree_swallowing :
    swallowingContext.SameButDeadCatch silentContext ∧
      ((({} : Detector).replies swallowingContext [.runMethod swallowingBody]).run {}).remarks =
        [] ∧
      ((({} : Detector).replies silentContext [.runMethod swallowingBody]).run {}).remarks =
        [.mishap (.checkingDeadStore "a.Service.run()V" (.other "no answer"))] ∧
      ((({} : Detector).replies swallowingContext [.runMethod swallowingBody]).run {}).Agrees
        ((({} : Detector).replies silentContext [.runMethod swallowingBody]).run {}) := by
  have hsame : swallowingContext.SameButDeadCatch silentContext := ⟨rfl, rfl, rfl⟩
  exact ⟨hsame, by decide +kernel, by decide +kernel, replies_agree _ _ hsame _ _ _⟩

end ExceptionFlow
