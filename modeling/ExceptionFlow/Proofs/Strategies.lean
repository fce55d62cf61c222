import ExceptionFlow.Proofs.StableRuns
/-!
The two ways to compare exceptions. Along superclasses an instruction raises no more than it does by
names alone, and what it raises is caught and declared at least as often. So everything that is
found along superclasses is found by names as well.
-/
namespace ExceptionFlow

/-- Where the findings are and which exceptions they are about. -/
def Batch.found (batch : Batch) : List (Nat × ClassName) :=
  batch.findings.map fun finding => (finding.offset, finding.exception)

theorem FlowLog.found_batch {flow : FlowLog} {body : MethodBody} (hframes : flow.Frames body) :
    (flow.batch body).found = uncovered body flow.events := by
  rw [FlowLog.batch_eq hframes]
  simp [Batch.found, Batch.ofBody, Finding.ofBody, Function.comp_def]

/-- A class of which only the name is known is covered by less than the class itself. -/
theorem MethodBody.covers_singleton_eq_false {body : MethodBody} {lineage : Lineage} {offset : Nat}
    (h : body.covers lineage offset = false) :
    body.covers (.singleton lineage.name) offset = false := by
  obtain ⟨hentries, hspecific, hroot, hundeclared⟩ := (body.covers_eq_false_iff _ _).mp h
  refine (body.covers_eq_false_iff _ _).mpr ⟨?_, hspecific, hroot, ?_⟩
  · intro entry hentry hstart hstop
    obtain ⟨caught, hcaught, hthrowable, hmem⟩ := hentries entry hentry hstart hstop
    refine ⟨caught, hcaught, hthrowable, ?_⟩
    rintro hsingle
    obtain rfl := List.mem_singleton.mp hsingle
    exact hmem lineage.own
  · intro name hmem
    obtain rfl := List.mem_singleton.mp hmem
    exact hundeclared _ lineage.own

namespace Context

variable {context textual : Context}

/-- The same classes and the same configuration, but for the way exceptions are compared. -/
structure TextualTwin (context textual : Context) : Prop where
  source : textual.source = context.source
  config : textual.config = { context.config with strategy := .textual }

namespace TextualTwin

variable (h : context.TextualTwin textual)
include h

theorem strategy : textual.config.strategy = .textual := by
  rw [h.config]

theorem usesHierarchy : textual.usesHierarchy = false := by
  simp [Context.usesHierarchy, h.strategy]

theorem callee? (target : CallTarget) (dispatch : Dispatch) :
    textual.callee? target dispatch = context.callee? target dispatch := by
  simp only [Context.callee?, h.source]

/-- By names alone no call hands on the exception that is thrown after it. -/
theorem mentioned_sublist (call other : Option (ClassName × String)) (kind : InstructionKind) :
    (context.mentioned call kind).Sublist (textual.mentioned other kind) := by
  have hhandsOn : textual.handsOn other = false := by
    simp [handsOn, h.usesHierarchy]
  cases kind with
  | athrow stackTop =>
      simp only [mentioned, hhandsOn, Bool.false_eq_true, if_false]
      split
      · exact List.nil_sublist _
      · exact List.Sublist.refl _
  | invoke target dispatch =>
      simp only [mentioned, h.callee?]
      exact List.Sublist.refl _
  | checkCast target => exact List.Sublist.refl _
  | store slot => exact List.Sublist.refl _
  | load slot => exact List.Sublist.refl _
  | ret => exact List.Sublist.refl _
  | other => exact List.Sublist.refl _

theorem escapes_iff (body : MethodBody) (instruction : Instruction) (name : ClassName) :
    textual.escapes body instruction name = true ↔
      body.covers (.singleton name) instruction.offset = false := by
  have hcounts : textual.counts instruction.kind (.singleton name) = true := by
    cases instruction.kind <;> simp [counts, h.usesHierarchy]
  rw [escapes, surely_eq_of_fresh (freshLineage?_textual h.usesHierarchy name), hcounts]
  simp

theorem uncovered_sublist {call : Option (ClassName × String)} {instruction : Instruction}
    {events : List ThrowEvent} (hraises : context.Raises call instruction events)
    (body : MethodBody) (before : List Instruction) :
    (FlowLog.uncovered body events).Sublist (textual.escapesAt body before instruction) := by
  refine hraises.uncovered_sublist body (h.mentioned_sublist _ _ _) ?_
  intro event hevent huncovered
  rw [hraises.offset event hevent] at huncovered
  rw [h.escapes_iff]
  exact MethodBody.covers_singleton_eq_false huncovered

theorem uncovered_sublist_escapesFrom {call : Option (ClassName × String)}
    {code : List Instruction} {events : List ThrowEvent}
    (hrecords : context.Records context.Raises call code events) (body : MethodBody)
    (before : List Instruction) :
    (FlowLog.uncovered body events).Sublist (textual.escapesFrom body before code) := by
  induction hrecords generalizing before with
  | nil => exact List.Sublist.refl _
  | @cons call instruction code raised events hraised _ ih =>
      rw [FlowLog.uncovered_append]
      exact (h.uncovered_sublist hraised body before).append (ih (before ++ [instruction]))

end TextualTwin

end Context

/-- A method is refused for the same stray instruction in both ways, or what is found along
superclasses is found by names alone as well, in the same order. -/
theorem found_sublist_textual (context textual : Context) (detector other : Detector)
    (memo otherMemo : Memo) (body : MethodBody) (htwin : context.TextualTwin textual)
    (hdetector : detector.Reachable context memo) (hidle : detector.phase = .idle)
    (hother : other.Reachable textual otherMemo) (hotherIdle : other.phase = .idle)
    (hcode : body.method.hasCode = true) :
    (∃ instruction,
        ((detector.runMethod context body).run memo).value.result =
            .error (body.outside instruction) ∧
          ((other.runMethod textual body).run otherMemo).value.result =
            .error (body.outside instruction)) ∨
      ∃ batch otherBatch, ((detector.runMethod context body).run memo).batches = [batch] ∧
        ((other.runMethod textual body).run otherMemo).batches = [otherBatch] ∧
        batch.found.Sublist otherBatch.found := by
  obtain rfl := hdetector.eq_empty_of_idle hidle
  obtain rfl := hother.eq_empty_of_idle hotherIdle
  obtain ⟨-, hran⟩ :=
    Detector.runMethod_ensures context body hcode memo hdetector.memo_reachable
  obtain ⟨-, hotherRan⟩ :=
    Detector.runMethod_ensures textual body hcode otherMemo hother.memo_reachable
  cases hran with
  | @stray instruction hstray hreply _ =>
      cases hotherRan with
      | stray hotherStray hotherReply _ =>
          obtain rfl := Option.some.inj (hstray.symm.trans hotherStray)
          rw [hreply, hotherReply]
          exact Or.inl ⟨instruction, rfl, rfl⟩
      | done hotherStray =>
          rw [hstray] at hotherStray
          cases hotherStray
  | @done flow hstray hframes hrecords _ hflushes =>
      cases hotherRan with
      | stray hotherStray =>
          rw [hstray] at hotherStray
          cases hotherStray
      | @done otherFlow _ hotherFrames hotherRecords _ hotherFlushes =>
          rw [← Outcome.map_flushes, ← Outcome.map_flushes, hflushes, hotherFlushes]
          refine Or.inr ⟨_, _, rfl, rfl, ?_⟩
          have hotherStart : textual.Records textual.Raises (textual.callBefore []) body.code
            otherFlow.events := hotherRecords
          rw [FlowLog.found_batch hframes, FlowLog.found_batch hotherFrames,
            hotherStart.uncovered_eq_escapesFrom (Or.inl htwin.strategy) body]
          exact htwin.uncovered_sublist_escapesFrom hrecords body []

/-- The reader of files, with exceptions compared by their names alone. -/
def namesContext : Context :=
  .new { strategy := .textual } filesContext.source fun _ => .ok ()

theorem found_sublist_textual_reader :
    filesContext.config.strategy = .hierarchy ∧ filesContext.TextualTwin namesContext ∧
      ({} : Detector).Reachable filesContext readerMemo ∧
      ({} : Detector).Reachable namesContext {} ∧ readerBody.method.hasCode = true ∧
      ((({} : Detector).runMethod filesContext readerBody).run readerMemo).batches.map
          Batch.found = [[(0, ioException), (2, ioException)]] ∧
      ((({} : Detector).runMethod namesContext readerBody).run {}).batches.map Batch.found =
        [[(0, .runtimeException), (0, ioException), (2, ioException)]] ∧
      ∃ batch otherBatch,
        ((({} : Detector).runMethod filesContext readerBody).run readerMemo).batches = [batch] ∧
        ((({} : Detector).runMethod namesContext readerBody).run {}).batches = [otherBatch] ∧
        batch.found.Sublist otherBatch.found := by
  have htwin : filesContext.TextualTwin namesContext := ⟨rfl, rfl⟩
  have hreader : ({} : Detector).Reachable filesContext readerMemo :=
    .fresh (.resolve .empty ioException)
  have hnames : ({} : Detector).Reachable namesContext {} := .fresh .empty
  have hresult : ((({} : Detector).runMethod filesContext readerBody).run
      readerMemo).value.result = .ok 2 := by
    rfl
  refine ⟨rfl, htwin, hreader, hnames, rfl, by decide +kernel, by decide +kernel, ?_⟩
  rcases found_sublist_textual filesContext namesContext {} {} readerMemo {} readerBody htwin
    hreader rfl hnames rfl rfl with ⟨instruction, hfailed, -⟩ | hfound
  · rw [hresult] at hfailed
    cases hfailed
  · exact hfound

end ExceptionFlow
