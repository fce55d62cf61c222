import ExceptionFlow.Proofs.CallFates
import ExceptionFlow.Proofs.SignatureReading
import ExceptionFlow.Proofs.Verdicts
import Mathlib.Data.List.TakeWhile
/-!
The throws clause of the method that is analysed. It is taken down at the start of the method and
not looked at before all events are there, so a method with another clause takes the same course up
to its end. There a smaller clause allows fewer events to leave the method, and more of them become
findings.
-/
namespace ExceptionFlow

namespace FlowLog

def declaring (flow : FlowLog) (clause : ThrowsClause) : FlowLog :=
  { flow with declared := clause }

theorem unseen_declaring (clause : ThrowsClause) : Unseen (·.declaring clause) where
  lastCall _ := rfl
  addAll _ _ := rfl
  calling _ _ := rfl

theorem Unseen.readAll {context : Context} {change : FlowLog → FlowLog} (h : Unseen change)
    (flow : FlowLog) (code : List Instruction) :
    (change flow).readAll context code = change <$> flow.readAll context code := by
  induction code generalizing flow with
  | nil => exact (map_pure _ _).symm
  | cons instruction code ih =>
      simp only [FlowLog.readAll, h.recordInstruction, bind_map_left, map_bind]
      congr
      funext next
      exact ih next

end FlowLog

/-- The method with another exceptions attribute and another generic signature. -/
def MethodBody.redeclared (body : MethodBody) (exceptions : List ClassName)
    (signature : Option String) : MethodBody :=
  { body with method := { body.method with exceptions, signature } }

/-- The test for dead catch variables, if there is one, says the same of both methods. -/
def Context.TestsAlike (context : Context) (body other : MethodBody) : Prop :=
  ∀ isLive ∈ context.deadCatchTest?, isLive other = isLive body

section Redeclared

variable {context : Context} {body : MethodBody} {exceptions : List ClassName}
  {signature : Option String}

namespace FlowLog

variable {clause : ThrowsClause}

theorem checkRegion_redeclared {isLive : Liveness}
    (hlive : isLive (body.redeclared exceptions signature) = isLive body)
    (region : GuardedRegion) :
    isLive.checkRegion (body.redeclared exceptions signature) region =
      isLive.checkRegion body region := by
  have hslot : Liveness.handlerSlot? (body.redeclared exceptions signature) region.handler =
      Liveness.handlerSlot? body region.handler := rfl
  unfold Liveness.checkRegion
  rw [hslot, hlive]
  rfl

theorem checkLastRegion_redeclared
    (htests : context.TestsAlike body (body.redeclared exceptions signature)) (flow : FlowLog) :
    (flow.declaring clause).checkLastRegion context (body.redeclared exceptions signature) =
      (·.declaring clause) <$> flow.checkLastRegion context body := by
  have hregions : (flow.declaring clause).regions = flow.regions := rfl
  unfold checkLastRegion
  rw [hregions]
  cases htest : context.deadCatchTest? with
  | none => rw [map_pure]
  | some isLive =>
      cases flow.regions.getLast? with
      | none => rw [map_pure]
      | some region =>
          simp only [checkRegion_redeclared (htests isLive htest), map_bind, map_pure]
          rfl

theorem enterAll_redeclared
    (htests : context.TestsAlike body (body.redeclared exceptions signature)) (flow : FlowLog)
    (entries : List TableEntry) :
    (flow.declaring clause).enterAll context (body.redeclared exceptions signature) entries =
      (·.declaring clause) <$> flow.enterAll context body entries := by
  induction entries generalizing flow with
  | nil => simp only [enterAll, map_pure]
  | cons entry entries ih =>
      have hentry : (flow.declaring clause).recordEntry context entry =
          (·.declaring clause) <$> flow.recordEntry context entry := by
        simp only [recordEntry, map_bind, map_pure]
        rfl
      simp only [enterAll, hentry, bind_map_left, checkLastRegion_redeclared htests, map_bind]
      congr
      funext recorded
      congr
      funext next
      exact ih next

end FlowLog

theorem Context.reading_redeclared
    (htests : context.TestsAlike body (body.redeclared exceptions signature)) :
    context.reading (body.redeclared exceptions signature) =
      (·.declaring (body.redeclared exceptions signature).method.throwsClause) <$>
        context.reading body := by
  have hstart : Detector.startLog (body.redeclared exceptions signature) =
      (Detector.startLog body).declaring
        (body.redeclared exceptions signature).method.throwsClause := by
    rw [← Detector.declared_startLog]
    rfl
  unfold reading
  rw [hstart, FlowLog.enterAll_redeclared htests]
  simp only [bind_map_left, (FlowLog.unseen_declaring _).readAll, map_bind]
  rfl

end Redeclared

namespace Detector

theorem value_scan (context : Context) (body : MethodBody) (memo : Memo) :
    ((({} : Detector).scan context body).run memo).value =
      { result := verdict body body.stray?
        detector := scanning body ((context.reading body).run memo).value } := by
  obtain ⟨-, hstarted, -⟩ := start_yields body memo
  rw [scan_eq]
  simp only [Action.run_bind, Action.run_pure, hstarted]

theorem remarks_start (body : MethodBody) (memo : Memo) :
    ((({} : Detector).start body).run memo).remarks = [] := by
  unfold start
  rw [if_pos rfl, Action.remarks_bind, Action.remarks_bind,
    body.method.remarks_readThrowsClause]
  rfl

theorem remarks_settled (entries : List (ThrowEvent × Coverage)) (memo : Memo) :
    ((entries.forM fun entry => Action.log (.settled entry.1 entry.2)).run memo).remarks = [] := by
  induction entries generalizing memo with
  | nil => rfl
  | cons entry entries ih => exact (Action.remarks_bind _ _ memo).trans (ih memo)

theorem remarks_finish (context : Context) (body : MethodBody) (flow : FlowLog) (memo : Memo) :
    (((scanning body flow).finish context).run memo).remarks = [] := by
  unfold finish reconcile FlowLog.settle
  simp only [inProgress_scanning, Action.remarks_bind, remarks_settled]
  rfl

/-- Nothing is resolved and nothing remarked on but what the rows and the instructions make so. -/
theorem memo_runMethod (context : Context) {body : MethodBody}
    (hcode : body.method.hasCode = true) (memo : Memo) :
    ((({} : Detector).runMethod context body).run memo).memo =
      ((context.reading body).run memo).memo := by
  obtain ⟨-, hstarted, -⟩ := start_yields body memo
  rw [runMethod_eq context hcode]
  simp only [Action.run_bind, hstarted]
  cases body.stray? with
  | some stray => rfl
  | none => exact (finish_yields context body _ _).2.1

theorem remarks_runMethod (context : Context) {body : MethodBody}
    (hcode : body.method.hasCode = true) (memo : Memo) :
    ((({} : Detector).runMethod context body).run memo).remarks =
      ((context.reading body).run memo).remarks := by
  obtain ⟨-, hstarted, -⟩ := start_yields body memo
  rw [runMethod_eq context hcode, Action.remarks_bind, Action.remarks_bind, remarks_start,
    hstarted, List.nil_append]
  cases body.stray? with
  | some stray => exact List.append_nil _
  | none => rw [remarks_finish, List.append_nil]

/-- The findings that are handed over when a method is run. -/
def findings (detector : Detector) (context : Context) (body : MethodBody) (memo : Memo) :
    List Finding :=
  ((detector.runMethod context body).run memo).batches.flatMap Batch.findings

theorem findings_eq (context : Context) {body : MethodBody} (hcode : body.method.hasCode = true)
    (memo : Memo) :
    ({} : Detector).findings context body memo =
      if body.stray?.isSome then []
      else (((context.reading body).run memo).value.batch body).findings := by
  unfold findings
  cases hstray : body.stray? with
  | some stray =>
      obtain ⟨-, hflushes⟩ := runMethod_stray context hcode hstray memo
      rw [← Outcome.map_flushes, hflushes]
      rfl
  | none =>
      rw [batches_runMethod hcode hstray]
      exact List.append_nil _

end Detector

namespace ThrowsClause

def Within (clause larger : ThrowsClause) : Prop :=
  ∀ name ∈ clause, name ∈ larger

theorem Within.allows {clause larger : ThrowsClause} (h : clause.Within larger)
    {event : ThrowEvent} (hallows : clause.allows event = true) : larger.allows event = true := by
  simp only [ThrowsClause.allows, declaresRoot, Bool.or_eq_true, decide_eq_true_eq,
    List.any_eq_true] at hallows ⊢
  rcases hallows with ((hunspecific | hroot) | hname) | ⟨name, hmem, hdescends⟩
  · exact Or.inl (Or.inl (Or.inl hunspecific))
  · exact Or.inl (Or.inl (Or.inr (h _ hroot)))
  · exact Or.inl (Or.inr (h _ hname))
  · exact Or.inr ⟨name, h name hmem, hdescends⟩

end ThrowsClause

/-- An unreadable signature leaves the exceptions attribute alone. -/
theorem MethodBody.within_of_unreadable (body : MethodBody) {text : String}
    {fault : Signature.Fault} (htext : Signature.parse text = .error fault) :
    (body.redeclared body.method.exceptions (some text)).method.throwsClause.Within
      body.method.throwsClause := by
  intro name hname
  have hnothing : (body.redeclared body.method.exceptions (some text)).method.signatureThrows =
      [] := by
    rw [MethodDecl.signatureThrows_eq rfl, htext]
    rfl
  rw [MethodDecl.mem_throwsClause, hnothing] at hname
  rw [MethodDecl.mem_throwsClause]
  exact Or.inl (hname.resolve_right List.not_mem_nil)

/-- A smaller clause lets more events escape. -/
theorem FlowLog.escapes_declaring (flow : FlowLog) {clause larger : ThrowsClause}
    (h : clause.Within larger) :
    (flow.declaring larger).escapes.Sublist (flow.declaring clause).escapes := by
  apply List.monotone_filter_right
  intro event hescapes
  rw [Bool.and_eq_true, Bool.not_eq_true', Bool.not_eq_true'] at hescapes ⊢
  refine ⟨hescapes.1, ?_⟩
  by_contra hallows
  have hlarger := h.allows ((Bool.not_eq_false _).mp hallows)
  exact absurd (hescapes.2.symm.trans hlarger) Bool.false_ne_true

namespace Detector

variable {context : Context} {body : MethodBody} {memo : Memo} {exceptions : List ClassName}
  {signature : Option String}

/-- Whatever clause a method is given, its findings are those events of one log that the clause does
not allow. -/
theorem findings_redeclared
    (htests : context.TestsAlike body (body.redeclared exceptions signature))
    (hcode : body.method.hasCode = true) (memo : Memo) :
    ({} : Detector).findings context (body.redeclared exceptions signature) memo =
      if body.stray?.isSome then []
      else
        (((context.reading body).run memo).value.declaring
          (body.redeclared exceptions signature).method.throwsClause).escapes.map fun event =>
            .ofBody body event.offset event.exception.name := by
  have hstray : (body.redeclared exceptions signature).stray? = body.stray? := rfl
  have hredeclared : (body.redeclared exceptions signature).method.hasCode = true := hcode
  rw [findings_eq context hredeclared, Context.reading_redeclared htests, hstray]
  rfl

end Detector

namespace Action

variable {α β : Type} (f : α → β) (action : Action α) (memo : Memo)

theorem remarks_blind :
    (((action.blind f).run memo).remarks.filter fun said => !said.isDeadCatch) =
      (action.run memo).remarks.filter fun said => !said.isDeadCatch := by
  have hkeep : ∀ said : Remark, said.isDeadCatch = true → (!said.isDeadCatch) = false := by
    intro said hdead
    rw [hdead, Bool.not_true]
  unfold Outcome.remarks
  rw [List.filter_filterMap, List.filter_filterMap]
  exact Emission.filterMap_blind (Emission.filter_remark_blind hkeep) (action.run memo).emitted

theorem batches_blind : ((action.blind f).run memo).batches = (action.run memo).batches := by
  refine Emission.filterMap_blind ?_ (action.run memo).emitted
  intro emission
  cases emission with
  | log record => cases record <;> rfl
  | flush batch verdict => rfl
  | remark said =>
      cases hdead : said.isDeadCatch <;> simp [Emission.blind?, Emission.batch?, hdead]

end Action

theorem Context.testsAlike_blind (context : Context) (body other : MethodBody) :
    context.blind.TestsAlike body other :=
  nofun

/-- The straight-line test looks at the code alone. -/
theorem Context.testsAlike_new (config : Config) (source : ClassSource)
    (accept : Batch → Except Failure Unit) (body : MethodBody) (exceptions : List ClassName)
    (signature : Option String) :
    (Context.new config source accept).TestsAlike body (body.redeclared exceptions signature) := by
  intro isLive hlive
  obtain ⟨-, hlive⟩ := Option.ite_none_right_eq_some.mp hlive
  obtain ⟨-, hlinear⟩ := Option.ite_none_right_eq_some.mp hlive
  cases hlinear
  rfl

namespace Detector

variable {context : Context} {body : MethodBody} {start : Memo} {exceptions : List ClassName}
  {signature : Option String}

theorem findings_blind (context : Context) (body : MethodBody) (memo : Memo) :
    ({} : Detector).findings context.blind body memo =
      ({} : Detector).findings context body memo := by
  have hbatches := Action.batches_blind Reply.blind (({} : Detector).runMethod context body) memo
  rw [runMethod_blind] at hbatches
  exact congrArg (List.flatMap Batch.findings) hbatches

/-- Of two clauses the smaller one gives at least the findings of the larger one. -/
theorem findings_sublist (context : Context) (memo : Memo) (hcode : body.method.hasCode = true)
    (exceptions others : List ClassName) (signature other : Option String)
    (hwithin : (body.redeclared exceptions signature).method.throwsClause.Within
      (body.redeclared others other).method.throwsClause) :
    (({} : Detector).findings context (body.redeclared others other) memo).Sublist
      (({} : Detector).findings context (body.redeclared exceptions signature) memo) := by
  rw [← findings_blind, ← findings_blind context,
    findings_redeclared (context.testsAlike_blind _ _) hcode,
    findings_redeclared (context.testsAlike_blind _ _) hcode]
  split
  · exact List.Sublist.refl _
  · exact (FlowLog.escapes_declaring _ hwithin).map _

/-- The two methods take the same course up to their ends. -/
structure SameCourse (detector : Detector) (context : Context) (start : Memo)
    (body other : MethodBody) : Prop where
  scanned : ((detector.scan context other).run start).value.result =
    ((detector.scan context body).run start).value.result
  events : ((detector.scan context other).run start).value.detector.flow.events =
    ((detector.scan context body).run start).value.detector.flow.events
  memo : ((detector.runMethod context other).run start).memo =
    ((detector.runMethod context body).run start).memo
  remarks : (((detector.runMethod context other).run start).remarks.filter
      fun said => !said.isDeadCatch) =
    ((detector.runMethod context body).run start).remarks.filter fun said => !said.isDeadCatch

theorem SameCourse.of_blind {other : MethodBody}
    (h : ({} : Detector).SameCourse context.blind start body other) :
    ({} : Detector).SameCourse context start body other := by
  have hscan : ∀ body, (({} : Detector).scan context.blind body).run start =
      ((({} : Detector).scan context body).blind Reply.blind).run start := by
    intro body
    rw [scan_blind]
    rfl
  have hrun : ∀ body, (({} : Detector).runMethod context.blind body).run start =
      ((({} : Detector).runMethod context body).blind Reply.blind).run start := by
    intro body
    rw [runMethod_blind]
    rfl
  obtain ⟨hscanned, hevents, hmemo, hremarks⟩ := h
  rw [hscan, hscan] at hscanned hevents
  rw [hrun, hrun] at hmemo hremarks
  rw [Action.remarks_blind, Action.remarks_blind] at hremarks
  exact ⟨hscanned, hevents, hmemo, hremarks⟩

theorem remarks_redeclared
    (htests : context.TestsAlike body (body.redeclared exceptions signature))
    (hcode : body.method.hasCode = true) (memo : Memo) :
    let redeclared := body.redeclared exceptions signature
    ((({} : Detector).runMethod context redeclared).run memo).remarks =
      ((({} : Detector).runMethod context body).run memo).remarks := by
  intro redeclared
  have hredeclared : redeclared.method.hasCode = true := hcode
  rw [remarks_runMethod context hredeclared, remarks_runMethod context hcode,
    Context.reading_redeclared htests]
  exact congrArg (List.filterMap Emission.remark?) (List.append_nil _)

theorem sameCourse_of_testsAlike
    (htests : context.TestsAlike body (body.redeclared exceptions signature))
    (hcode : body.method.hasCode = true) (start : Memo) :
    ({} : Detector).SameCourse context start body (body.redeclared exceptions signature) where
  scanned := by
    rw [value_scan, value_scan]
    rfl
  events := by
    rw [value_scan, value_scan, Context.reading_redeclared htests]
    rfl
  memo := by
    have hredeclared : (body.redeclared exceptions signature).method.hasCode = true := hcode
    rw [memo_runMethod context hredeclared, memo_runMethod context hcode,
      Context.reading_redeclared htests]
    rfl
  remarks := by rw [remarks_redeclared htests hcode]

end Detector

/-- The clause of a method matters at its end alone: with another clause the same events are made,
the same classes resolved and the same remarks made, and a smaller clause adds findings while a
larger one removes some. A test for dead catch variables is given the whole method, so its remarks
are the same if it does not look at the clause. -/
theorem runMethod_redeclared (context : Context) (detector : Detector) (reached start : Memo)
    (visited : List TableEntry) (hdetector : Detector.Operated detector reached visited)
    (hidle : detector.phase = .idle) (body : MethodBody) (hcode : body.method.hasCode = true)
    (exceptions : List ClassName) (signature : Option String) :
    let redeclared := body.redeclared exceptions signature
    detector.SameCourse context start body redeclared ∧
      (context.TestsAlike body redeclared →
        ((detector.runMethod context redeclared).run start).remarks =
          ((detector.runMethod context body).run start).remarks) ∧
      (redeclared.method.throwsClause.Within body.method.throwsClause →
        (detector.findings context body start).Sublist
          (detector.findings context redeclared start)) ∧
      (body.method.throwsClause.Within redeclared.method.throwsClause →
        (detector.findings context redeclared start).Sublist
          (detector.findings context body start)) ∧
      ∀ text fault, Signature.parse text = .error fault →
        (detector.findings context body start).Sublist (detector.findings context
          (body.redeclared body.method.exceptions (some text)) start) := by
  obtain rfl := hdetector.stands.eq_new hidle
  intro redeclared
  refine ⟨.of_blind (Detector.sameCourse_of_testsAlike (context.testsAlike_blind _ _) hcode start),
    fun htests => Detector.remarks_redeclared htests hcode start, ?_, ?_, ?_⟩
  · intro hwithin
    exact Detector.findings_sublist context start hcode _ body.method.exceptions _
      body.method.signature hwithin
  · intro hwithin
    exact Detector.findings_sublist context start hcode body.method.exceptions _
      body.method.signature _ hwithin
  · intro text fault htext
    exact Detector.findings_sublist context start hcode _ _ _ _ (body.within_of_unreadable htext)

/-- A reader that declares one of the exceptions it throws, in its generic signature. -/
def declaringReader : MethodBody :=
  { readerBody with
    method := { readerBody.method with signature := some "()V^Ljava/io/IOException;" }
    code := readerBody.code ++ [⟨3, .athrow (some "Ljava/lang/Exception;")⟩] }

theorem runMethod_redeclared_reader :
    let unreadable := declaringReader.redeclared [] (some "()V^")
    let findings := ({} : Detector).findings filesContext
    Detector.Operated {} {} [] ∧ declaringReader.method.hasCode = true ∧
      filesContext.TestsAlike declaringReader unreadable ∧
      unreadable.method.throwsClause.Within declaringReader.method.throwsClause ∧
      (findings declaringReader {}).map Finding.offset = [3] ∧
      (findings unreadable {}).map Finding.offset = [0, 2, 3] ∧
      (findings declaringReader {}).Sublist (findings unreadable {}) ∧
      ((({} : Detector).runMethod filesContext unreadable).run {}).remarks =
        ((({} : Detector).runMethod filesContext declaringReader).run {}).remarks ∧
      ({} : Detector).SameCourse filesContext {} declaringReader unreadable := by
  intro unreadable findings
  have htests : filesContext.TestsAlike declaringReader unreadable :=
    Context.testsAlike_new _ _ _ _ _ _
  have hwithin : unreadable.method.throwsClause.Within declaringReader.method.throwsClause := nofun
  have hredeclared := runMethod_redeclared filesContext {} {} {} [] .new rfl declaringReader rfl []
    (some "()V^")
  exact ⟨.new, rfl, htests, hwithin, by decide +kernel, by decide +kernel,
    hredeclared.2.2.1 hwithin, hredeclared.2.1 htests, hredeclared.1⟩

end ExceptionFlow
