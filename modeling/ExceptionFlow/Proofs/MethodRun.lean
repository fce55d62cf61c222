import ExceptionFlow.Detector
import ExceptionFlow.Proofs.ClauseOrder
import ExceptionFlow.Proofs.Recording
import Mathlib.Data.List.TakeWhile
/-!
A method from start to finish. A method is read row by row and then instruction by instruction, up
to the first instruction that lies outside it. Such an instruction ends the run with a failure; else
one batch is handed over, made from the events that the instructions raise one after another.
-/
namespace ExceptionFlow

/-- The events that code leaves in the log, instruction by instruction, after the given call, when
each instruction raises events like this. -/
inductive Context.Records (context : Context)
    (raises : Option (ClassName × String) → Instruction → List ThrowEvent → Prop) :
    Option (ClassName × String) → List Instruction → List ThrowEvent → Prop where
  | nil {call : Option (ClassName × String)} : Records context raises call [] []
  | cons {call : Option (ClassName × String)} {instruction : Instruction} {code : List Instruction}
      {raised events : List ThrowEvent} (hraised : raises call instruction raised)
      (hrest : Records context raises (context.callAfter call instruction.kind) code events) :
      Records context raises call (instruction :: code) (raised ++ events)

theorem Context.Records.mono {context : Context}
    {raises weaker : Option (ClassName × String) → Instruction → List ThrowEvent → Prop}
    (hweaker : ∀ call instruction events, raises call instruction events →
      weaker call instruction events)
    {call : Option (ClassName × String)} {code : List Instruction} {events : List ThrowEvent}
    (h : context.Records raises call code events) : context.Records weaker call code events := by
  induction h with
  | nil => exact .nil
  | cons hraised _ ih => exact .cons (hweaker _ _ _ hraised) ih

theorem Context.Records.admitted {context : Context} {call : Option (ClassName × String)}
    {code : List Instruction} {events : List ThrowEvent}
    (h : context.Records context.Raises call code events) :
    ∀ event ∈ events, context.Admits event.exception := by
  induction h with
  | nil => simp
  | cons hraised _ ih => exact List.forall_mem_append.mpr ⟨hraised.admitted, ih⟩

namespace MethodBody

def outside (body : MethodBody) (instruction : Instruction) : Failure :=
  .malformed none s!"Instruction at {Text.hex instruction.offset} lies outside {body.label}"

/-- The first instruction that lies outside the method. -/
def stray? (body : MethodBody) : Option Instruction :=
  body.code.find? fun instruction => !body.spans instruction.offset

/-- The instructions before it. -/
def inside (body : MethodBody) : List Instruction :=
  body.code.takeWhile fun instruction => body.spans instruction.offset

theorem spans_of_stray? {body : MethodBody} (hstray : body.stray? = none) :
    ∀ instruction ∈ body.code, body.spans instruction.offset = true := by
  simpa [stray?] using hstray

theorem inside_eq_code {body : MethodBody} (hstray : body.stray? = none) :
    body.inside = body.code :=
  List.takeWhile_eq_self_iff.mpr (spans_of_stray? hstray)

end MethodBody

theorem Liveness.checkRegion_yields (isLive : Liveness) (body : MethodBody)
    (region : GuardedRegion) :
    ∃ checked : GuardedRegion, checked.row = region.row ∧
      (checkRegion isLive body region).Yields checked [] := by
  unfold checkRegion
  cases handlerSlot? body region.handler with
  | none => exact ⟨region, rfl, Action.Yields.pure _⟩
  | some slot =>
      simp only
      cases isLive body region.handler slot with
      | ok live =>
          cases live with
          | true => exact ⟨{ region with deadVariable := false }, rfl, Action.Yields.pure _⟩
          | false =>
              exact ⟨{ region with deadVariable := true }, rfl,
                (Action.Yields.log _).bind (Action.Yields.pure _)⟩
      | error cause =>
          cases cause <;> exact ⟨region, rfl, (Action.Yields.remark _).bind (Action.Yields.pure _)⟩

namespace FlowLog

theorem checkLastRegion_yields (flow : FlowLog) (context : Context) (body : MethodBody) :
    ∃ regions, regions.map GuardedRegion.row = flow.regions.map GuardedRegion.row ∧
      (flow.checkLastRegion context body).Yields { flow with regions } [] := by
  unfold checkLastRegion
  cases context.deadCatchTest? with
  | none => exact ⟨flow.regions, rfl, Action.Yields.pure _⟩
  | some isLive =>
      cases hlast : flow.regions.getLast? with
      | none => exact ⟨flow.regions, rfl, Action.Yields.pure _⟩
      | some region =>
          obtain ⟨checked, hrow, hchecked⟩ := Liveness.checkRegion_yields isLive body region
          refine ⟨_, ?_, hchecked.bind (Action.Yields.pure _)⟩
          obtain ⟨before, hregions⟩ := List.getLast?_eq_some_iff.mp hlast
          simp [hregions, hrow]

/-- Takes down rows of the exception table and checks each of them. -/
def enterAll (flow : FlowLog) (context : Context) (body : MethodBody) :
    List TableEntry → Action FlowLog
  | [] => return flow
  | entry :: entries => do
    let recorded ← flow.recordEntry context entry
    let next ← recorded.checkLastRegion context body
    next.enterAll context body entries

/-- Takes down instructions one after another. -/
def readAll (flow : FlowLog) (context : Context) : List Instruction → Action FlowLog
  | [] => return flow
  | instruction :: code => do
    let next ← flow.recordInstruction context instruction
    next.readAll context code

end FlowLog

namespace Detector

/-- A detector in the middle of a method. -/
def scanning (body : MethodBody) (flow : FlowLog) : Detector :=
  { phase := .scanning, current := some body, flow }

@[simp]
theorem inProgress_scanning (body : MethodBody) (flow : FlowLog) (operation : String) :
    (scanning body flow).inProgress operation = .ok body :=
  rfl

def startLog (body : MethodBody) : FlowLog :=
  { declared := ({} : ThrowsClause).merge body.method.throwsClause }

theorem mem_startLog (body : MethodBody) (name : ClassName) :
    name ∈ (startLog body).declared ↔ name ∈ body.method.throwsClause :=
  ThrowsClause.mem_ofList body.method.throwsClause.entries name

theorem start_yields (body : MethodBody) :
    (({} : Detector).start body).Yields
      { result := .ok (), detector := scanning body (startLog body) } [] := by
  unfold start
  rw [if_pos rfl]
  exact (Action.Yields.log _).bind
    (body.method.readThrowsClause_yields.bind (Action.Yields.pure _))

end Detector

/-- The log of a method when it is finished or abandoned. -/
def Context.reading (context : Context) (body : MethodBody) : Action FlowLog := do
  let entered ← (Detector.startLog body).enterAll context body body.handlers
  entered.readAll context body.inside

section Reading

variable {context : Context} {inv : Memo → Prop} {answers : ClassName → Option Lineage → Prop}

/-- A row adds one region and may mark it. -/
theorem FlowLog.enter_quietly (h : context.Resolves inv answers) (flow : FlowLog)
    (body : MethodBody) (entry : TableEntry) :
    (flow.recordEntry context entry >>= fun recorded =>
      recorded.checkLastRegion context body).Quietly inv fun next =>
        ∃ regions, regions.map GuardedRegion.row =
          flow.regions.map GuardedRegion.row ++ [entry] ∧ next = { flow with regions } := by
  refine Action.Quietly.bind (flow.recordEntry_plainly h entry).quietly ?_
  rintro _ ⟨region, hrow, rfl⟩
  obtain ⟨regions, hregions, hyields⟩ := checkLastRegion_yields
    { flow with regions := flow.regions ++ [region] } context body
  refine hyields.ensures ⟨rfl, regions, ?_, rfl⟩
  rw [hregions, List.map_append, List.map_singleton, hrow]

theorem FlowLog.enterAll_quietly (h : context.Resolves inv answers) (flow : FlowLog)
    (body : MethodBody) (entries : List TableEntry) :
    (flow.enterAll context body entries).Quietly inv fun next =>
      ∃ regions, regions.map GuardedRegion.row = flow.regions.map GuardedRegion.row ++ entries ∧
        next = { flow with regions } := by
  induction entries generalizing flow with
  | nil => exact Action.Quietly.pure ⟨flow.regions, by simp, rfl⟩
  | cons entry entries ih =>
      unfold enterAll
      rw [← bind_assoc]
      refine Action.Quietly.bind (flow.enter_quietly h body entry) ?_
      rintro _ ⟨entered, hentered, rfl⟩
      refine (ih { flow with regions := entered }).mono ?_
      rintro _ ⟨regions, hregions, rfl⟩
      refine ⟨regions, ?_, rfl⟩
      rw [hregions, hentered, List.append_assoc, List.singleton_append]

theorem FlowLog.readAll_plainly (h : context.Resolves inv answers) (flow : FlowLog)
    (code : List Instruction) :
    (flow.readAll context code).Plainly inv fun next =>
      ∃ events lastCall, context.Records (context.Raised answers) flow.lastCall code events ∧
        next = { flow.addAll events with lastCall } := by
  induction code generalizing flow with
  | nil => exact Action.Plainly.pure ⟨[], flow.lastCall, .nil, by simp⟩
  | cons instruction code ih =>
      refine Action.Plainly.bind (flow.recordInstruction_plainly h instruction) ?_
      rintro _ ⟨raised, hraised, rfl⟩
      refine (ih (flow.afterInstruction context instruction.kind raised)).mono ?_
      rintro next ⟨events, lastCall, hevents, rfl⟩
      refine ⟨raised ++ events, lastCall, .cons hraised hevents, ?_⟩
      simp [afterInstruction, addAll]

/-- The log of a method has its clause and its rows, and the events that its instructions raise. -/
theorem Context.reading_quietly (h : context.Resolves inv answers) (body : MethodBody) :
    (context.reading body).Quietly inv fun flow =>
      flow.Frames body ∧
        context.Records (context.Raised answers) none body.inside flow.events := by
  refine Action.Quietly.bind (FlowLog.enterAll_quietly h _ body body.handlers) ?_
  rintro _ ⟨regions, hregions, rfl⟩
  refine (FlowLog.readAll_plainly h _ body.inside).quietly.mono ?_
  rintro _ ⟨events, lastCall, hevents, rfl⟩
  exact ⟨⟨hregions, Detector.mem_startLog body⟩, hevents⟩

theorem Context.records_reading {body : MethodBody} (hstray : body.stray? = none) {memo : Memo}
    (hmemo : memo.Reachable context) :
    context.Records context.Raises none body.code
      ((context.reading body).run memo).value.events := by
  obtain ⟨-, -, -, hrecords⟩ := context.reading_quietly context.resolves_reachable body memo hmemo
  rw [MethodBody.inside_eq_code hstray] at hrecords
  exact hrecords.mono fun _ _ _ hraised => hraised.raises

end Reading

namespace Detector

variable {context : Context}

theorem addEntry_quietly {inv : Memo → Prop} {answers : ClassName → Option Lineage → Prop}
    (h : context.Resolves inv answers) (body : MethodBody) (flow : FlowLog) (entry : TableEntry) :
    ((scanning body flow).addEntry context entry).Quietly inv fun reply =>
      ∃ regions,
        regions.map GuardedRegion.row = flow.regions.map GuardedRegion.row ++ [entry] ∧
        reply = { result := .ok (), detector := scanning body { flow with regions } } := by
  unfold addEntry
  rw [inProgress_scanning]
  simp only
  rw [← bind_assoc]
  refine Action.Quietly.bind (flow.enter_quietly h body entry) ?_
  rintro _ ⟨regions, hregions, rfl⟩
  exact Action.Quietly.pure ⟨regions, hregions, rfl⟩

theorem step_quietly {inv : Memo → Prop} {answers : ClassName → Option Lineage → Prop}
    (h : context.Resolves inv answers) (body : MethodBody) (flow : FlowLog)
    (instruction : Instruction) (hspans : body.spans instruction.offset = true) :
    ((scanning body flow).step context instruction).Quietly inv fun reply =>
      ∃ raised, context.Raised answers flow.lastCall instruction raised ∧
        reply = { result := .ok ()
                  detector := scanning body
                    (flow.afterInstruction context instruction.kind raised) } := by
  unfold step
  rw [inProgress_scanning]
  simp only [hspans, if_true]
  refine Action.Quietly.bind (flow.recordInstruction_plainly h instruction).quietly ?_
  rintro _ ⟨raised, hraised, rfl⟩
  exact Action.Quietly.pure ⟨raised, hraised, rfl⟩

theorem step_stray (context : Context) (body : MethodBody) (flow : FlowLog)
    (instruction : Instruction) (hspans : body.spans instruction.offset = false) :
    (scanning body flow).step context instruction =
      pure ((scanning body flow).refuse (body.outside instruction)) := by
  unfold step
  rw [inProgress_scanning]
  simp only [hspans, Bool.false_eq_true, if_false]
  rfl

/-- How scanning a method ends. -/
def verdict (body : MethodBody) : Option Instruction → Except Failure Unit
  | none => .ok ()
  | some stray => .error (body.outside stray)

theorem forEach_addEntry_eq (body : MethodBody) (flow : FlowLog) (entries : List TableEntry) :
    (scanning body flow).forEach (addEntry · context) entries = (do
      let next ← flow.enterAll context body entries
      return { result := .ok (), detector := scanning body next }) := by
  induction entries generalizing flow with
  | nil => rfl
  | cons entry entries ih =>
      unfold forEach addEntry FlowLog.enterAll
      simp only [inProgress_scanning, bind_assoc, pure_bind]
      congr
      funext recorded
      congr
      funext next
      exact ih next

/-- Code is taken down up to the first instruction that lies outside the method. -/
theorem forEach_step_eq (body : MethodBody) (flow : FlowLog) (code : List Instruction) :
    (scanning body flow).forEach (step · context) code = (do
      let next ← flow.readAll context
        (code.takeWhile fun instruction => body.spans instruction.offset)
      return {
        result := verdict body (code.find? fun instruction => !body.spans instruction.offset)
        detector := scanning body next }) := by
  induction code generalizing flow with
  | nil => rfl
  | cons instruction code ih =>
      unfold forEach step
      cases hspans : body.spans instruction.offset with
      | true =>
          simp only [inProgress_scanning, hspans, if_true, List.takeWhile_cons, Bool.not_true,
            List.find?_cons, FlowLog.readAll, bind_assoc, pure_bind]
          congr
          funext next
          exact ih next
      | false =>
          simp only [inProgress_scanning, hspans, List.takeWhile_cons, List.find?_cons]
          rfl

/-- To scan a method is to start it and to read it. -/
theorem scan_eq (context : Context) (body : MethodBody) :
    ({} : Detector).scan context body = (do
      let _ ← ({} : Detector).start body
      let flow ← context.reading body
      return { result := verdict body body.stray?, detector := scanning body flow }) := by
  refine Action.bind_congr_of_always ((start_yields body).ensures rfl) ?_
  rintro _ rfl
  simp only [forEach_addEntry_eq, forEach_step_eq, Context.reading, bind_assoc, pure_bind]
  rfl

theorem settle_yields (flow : FlowLog) :
    flow.settle.Yields
      (flow.escapes,
        { flow with regions := (Coverage.settleAll flow.declared flow.events flow.regions).2 })
      [] := by
  have hlogs : ∀ entries : List (ThrowEvent × Coverage),
      (entries.forM fun entry => Action.log (.settled entry.1 entry.2)).Yields () [] := by
    intro entries
    induction entries with
    | nil => exact Action.Yields.pure ()
    | cons entry entries ih => exact (Action.Yields.log _).bind ih
  unfold FlowLog.settle FlowLog.escapes
  rw [← Coverage.escaped_settleAll]
  exact (hlogs _).bind (Action.Yields.pure _)

theorem reconcile_yields (detector : Detector) (body : MethodBody) :
    (detector.reconcile body).Yields (detector.flow.batch body,
      { detector with
        phase := .reconciling
        flow := { detector.flow with
          regions := (Coverage.settleAll detector.flow.declared detector.flow.events
            detector.flow.regions).2 } }) [] := by
  unfold reconcile
  exact (settle_yields detector.flow).bind ((Action.Yields.log _).bind (Action.Yields.pure _))

/-- The end of a method hands over one batch, whether or not it is taken. -/
theorem finish_yields (context : Context) (body : MethodBody) (flow : FlowLog) :
    ((scanning body flow).finish context).Yields
      { result := (context.accept (flow.batch body)).map fun _ => (flow.batch body).size
        detector := {} } [(flow.batch body, context.accept (flow.batch body))] := by
  unfold finish
  rw [inProgress_scanning]
  exact (reconcile_yields _ body).bind ((Action.Yields.flush _ _).bind (Action.Yields.pure _))

/-- What running a method with code comes to, when each instruction raises events like this. -/
inductive Ran (context : Context)
    (raises : Option (ClassName × String) → Instruction → List ThrowEvent → Prop)
    (body : MethodBody) (reply : Reply Nat) (flushes : List Flush) : Prop where
  | stray {instruction : Instruction} (hstray : body.stray? = some instruction)
      (hreply : reply = { result := .error (body.outside instruction), detector := {} })
      (hflushes : flushes = []) : Ran context raises body reply flushes
  | done {flow : FlowLog} (hstray : body.stray? = none) (hframes : flow.Frames body)
      (hrecords : context.Records raises none body.code flow.events)
      (hreply : reply =
        { result := (context.accept (flow.batch body)).map fun _ => (flow.batch body).size
          detector := {} })
      (hflushes : flushes = [(flow.batch body, context.accept (flow.batch body))]) :
      Ran context raises body reply flushes

/-- To run a method is to start it and to read it, and then to finish it unless an instruction lies
outside it. -/
theorem runMethod_eq (context : Context) {body : MethodBody} (hcode : body.method.hasCode = true) :
    ({} : Detector).runMethod context body = (do
      let _ ← ({} : Detector).start body
      let flow ← context.reading body
      match body.stray? with
      | none => (scanning body flow).finish context
      | some stray => return { result := .error (body.outside stray), detector := {} }) := by
  unfold runMethod
  rw [if_pos hcode, scan_eq]
  simp only [bind_assoc, pure_bind]
  cases body.stray? <;> rfl

/-- A method without stray instructions is read to its end, and its report is handed over. -/
theorem runMethod_reading (context : Context) {body : MethodBody}
    (hcode : body.method.hasCode = true) (hstray : body.stray? = none) (memo : Memo) :
    let outcome := (({} : Detector).runMethod context body).run memo
    let report := ((context.reading body).run memo).value.batch body
    outcome.value = { result := (context.accept report).map fun _ => report.size, detector := {} } ∧
      outcome.memo = ((context.reading body).run memo).memo ∧
      outcome.flushes = [(report, context.accept report)] := by
  obtain ⟨-, hstarted, hstart⟩ := start_yields body memo
  obtain ⟨-, hread, -⟩ := context.reading_quietly context.resolves_named body memo trivial
  obtain ⟨hvalue, hmemo, hflushes⟩ := finish_yields context body
    ((context.reading body).run memo).value ((context.reading body).run memo).memo
  rw [runMethod_eq context hcode, hstray]
  refine ⟨?_, ?_, ?_⟩
  · simpa only [Action.run_bind, hstarted] using hvalue
  · simpa only [Action.run_bind, hstarted] using hmemo
  · rw [Action.flushes_bind, hstart, hstarted, Action.flushes_bind, hread, hflushes]
    rfl

theorem batches_runMethod {body : MethodBody} (hcode : body.method.hasCode = true)
    (hstray : body.stray? = none) (memo : Memo) :
    ((({} : Detector).runMethod context body).run memo).batches =
      [((context.reading body).run memo).value.batch body] := by
  obtain ⟨-, -, hflushes⟩ := runMethod_reading context hcode hstray memo
  rw [← Outcome.map_flushes, hflushes]
  rfl

theorem runMethod_ran {inv : Memo → Prop} {answers : ClassName → Option Lineage → Prop}
    (h : context.Resolves inv answers) {body : MethodBody} (hcode : body.method.hasCode = true) :
    (({} : Detector).runMethod context body).Ensures inv
      (Ran context (context.Raised answers) body) := by
  rw [runMethod_eq context hcode]
  refine Action.Ensures.after (start_yields body) ?_
  refine Action.Quietly.bind (context.reading_quietly h body) ?_
  rintro flow ⟨hframes, hrecords⟩
  cases hstray : body.stray? with
  | some instruction => exact Action.Ensures.pure (.stray hstray rfl rfl)
  | none =>
      rw [MethodBody.inside_eq_code hstray] at hrecords
      exact (finish_yields context body flow).ensures (.done hstray hframes hrecords rfl rfl)

theorem Ran.detector_eq
    {raises : Option (ClassName × String) → Instruction → List ThrowEvent → Prop}
    {body : MethodBody} {reply : Reply Nat} {flushes : List Flush}
    (h : Ran context raises body reply flushes) : reply.detector = {} := by
  cases h with
  | stray _ hreply _ => rw [hreply]
  | done _ _ _ hreply _ => rw [hreply]

theorem Ran.mono {raises weaker : Option (ClassName × String) → Instruction →
      List ThrowEvent → Prop}
    (hweaker : ∀ call instruction events, raises call instruction events →
      weaker call instruction events)
    {body : MethodBody} {reply : Reply Nat} {flushes : List Flush}
    (h : Ran context raises body reply flushes) : Ran context weaker body reply flushes := by
  cases h with
  | stray hstray hreply hflushes => exact .stray hstray hreply hflushes
  | done hstray hframes hrecords hreply hflushes =>
      exact .done hstray hframes (hrecords.mono hweaker) hreply hflushes

theorem runMethod_ensures (context : Context) (body : MethodBody)
    (hcode : body.method.hasCode = true) :
    (({} : Detector).runMethod context body).Ensures (Memo.Reachable context)
      (Ran context context.Raises body) :=
  (runMethod_ran context.resolves_reachable hcode).mono fun _ _ hran =>
    hran.mono fun _ _ _ hraised => hraised.raises

end Detector

end ExceptionFlow
