import ExceptionFlow.Proofs.Reachability
/-!
What the findings of a method mean. Every finding has an instruction it comes from and nothing that
covers it, and every exception that has to be found is found, however warm the memo is.
-/
namespace ExceptionFlow

variable {context : Context}

/-- An exception with these superclasses that an instruction lets out: a checked exception that is
thrown, or one that the called method declares. -/
inductive Context.Origin (context : Context) (exception : ClassName) (above : List ClassName) :
    InstructionKind → Prop where
  | thrown {signature : String} (hname : ClassName.ofSignature? signature = some exception)
      (hthrowable : .throwable ∈ exception :: above)
      (hruntime : .runtimeException ∉ exception :: above) (herror : .error ∉ exception :: above) :
      Origin context exception above (.athrow (some signature))
  | declared {target : CallTarget} {dispatch : Dispatch} {callee : Callee}
      (harray : target.hasArrayOwner = false)
      (hcallee : Callee.resolve context.source target dispatch = .ok (some callee))
      (hdeclared : exception ∈ callee.method.throwsClause) :
      Origin context exception above (.invoke target dispatch)

/-- An exception with these superclasses is let out at the offset, and neither the exception table
nor the throws clause of the method has anything to set against it. -/
structure Context.Exposed (context : Context) (body : MethodBody) (offset : Nat)
    (exception : ClassName) (above : List ClassName) : Prop where
  origin : ∃ instruction ∈ body.code, instruction.offset = offset ∧
    context.Origin exception above instruction.kind
  uncaught : ∀ entry ∈ body.handlers, entry.start ≤ offset → offset < entry.stop →
    ∃ name, entry.catchType = some name ∧ name ≠ .throwable ∧ name ∉ exception :: above
  specific : exception ≠ .throwable
  undeclaredRoot : .exception ∉ body.method.throwsClause
  undeclared : ∀ name ∈ exception :: above, name ∉ body.method.throwsClause

theorem Context.Records.exists_raises {call : Option (ClassName × String)}
    {code : List Instruction} {events : List ThrowEvent}
    (h : context.Records context.Raises call code events)
    {event : ThrowEvent} (hevent : event ∈ events) :
    ∃ instruction ∈ code, ∃ before raised,
      context.Raises before instruction raised ∧ event ∈ raised := by
  induction h with
  | nil => cases hevent
  | @cons before instruction code raised events hraised _ ih =>
      rcases List.mem_append.mp hevent with hevent | hevent
      · exact ⟨instruction, List.mem_cons_self, before, raised, hraised, hevent⟩
      · obtain ⟨other, hother, hrest⟩ := ih hevent
        exact ⟨other, List.mem_cons_of_mem instruction hother, hrest⟩

theorem Context.Raises.origin (hmode : context.usesHierarchy = true)
    {call : Option (ClassName × String)} {instruction : Instruction} {events : List ThrowEvent}
    (h : context.Raises call instruction events) {event : ThrowEvent} (hevent : event ∈ events)
    {above : List ClassName}
    (habove : event.exception.ancestors = event.exception.name :: above) :
    context.Origin event.exception.name above instruction.kind := by
  have hmentioned : event.exception.name ∈ context.mentioned call instruction.kind :=
    h.sublist.subset (List.mem_map_of_mem hevent)
  obtain ⟨offset, kind⟩ := instruction
  cases kind with
  | athrow stackTop =>
      simp only [mentioned] at hmentioned
      split at hmentioned
      · cases hmentioned
      · rw [Option.mem_toList, Option.bind_eq_some_iff] at hmentioned
        obtain ⟨signature, rfl, hname⟩ := hmentioned
        have hcounts := h.thrown _ rfl event hevent
        simp only [counts, hmode, Lineage.canBeThrown, Lineage.isUnchecked, Lineage.descendsFrom,
          habove, Bool.not_true, Bool.false_or, Bool.and_eq_true, Bool.not_or,
          Bool.not_eq_true', List.contains_iff_mem, ← Bool.not_eq_true] at hcounts
        exact .thrown hname hcounts.1 hcounts.2.1 hcounts.2.2
  | invoke target dispatch =>
      simp only [mentioned] at hmentioned
      cases hcallee : context.callee? target dispatch with
      | none =>
          rw [hcallee] at hmentioned
          cases hmentioned
      | some callee =>
          rw [hcallee] at hmentioned
          obtain ⟨harray, hresolve⟩ := callee?_eq_some_iff.mp hcallee
          exact .declared harray hresolve hmentioned
  | checkCast target => cases hmentioned
  | store slot => cases hmentioned
  | load slot => cases hmentioned
  | ret => cases hmentioned
  | other => cases hmentioned

theorem MethodBody.covers_eq_false_iff (body : MethodBody) (lineage : Lineage) (offset : Nat) :
    body.covers lineage offset = false ↔
      (∀ entry ∈ body.handlers, entry.start ≤ offset → offset < entry.stop →
        ∃ name, entry.catchType = some name ∧ name ≠ .throwable ∧ name ∉ lineage.ancestors) ∧
      lineage.name ≠ .throwable ∧ .exception ∉ body.method.throwsClause ∧
      ∀ name ∈ lineage.ancestors, name ∉ body.method.throwsClause := by
  have hstops : ∀ entry : TableEntry, entry.stops lineage = false ↔
      ∃ name, entry.catchType = some name ∧ name ≠ .throwable ∧ name ∉ lineage.ancestors := by
    intro entry
    unfold TableEntry.stops Lineage.descendsFrom
    cases entry.catchType <;> simp
  have hhandlers : (body.handlers.any fun entry =>
        entry.guards offset && entry.stops lineage) = false ↔
      ∀ entry ∈ body.handlers, entry.start ≤ offset → offset < entry.stop →
        ∃ name, entry.catchType = some name ∧ name ≠ .throwable ∧ name ∉ lineage.ancestors := by
    simp only [List.any_eq_false, Bool.and_eq_true, not_and, TableEntry.guards, decide_eq_true_eq,
      Bool.not_eq_true, hstops, and_imp]
  have hclause : body.method.throwsClause.entries.any lineage.descendsFrom = false ↔
      ∀ name ∈ lineage.ancestors, name ∉ body.method.throwsClause := by
    simp only [List.any_eq_false, Lineage.descendsFrom, List.contains_iff_mem]
    exact ⟨fun h name hname hmem => h name hmem hname, fun h name hmem hname => h name hname hmem⟩
  simp only [covers, Bool.or_eq_false_iff, hhandlers, hclause, Lineage.isUnspecific,
    ThrowsClause.declaresRoot, decide_eq_false_iff_not]
  constructor
  · rintro ⟨⟨⟨hname, hentries⟩, hroot⟩, hnames⟩
    exact ⟨hentries, hname, hroot, hnames⟩
  · rintro ⟨hentries, hname, hroot, hnames⟩
    exact ⟨⟨⟨hname, hentries⟩, hroot⟩, hnames⟩

theorem FlowLog.exists_event_of_finding {flow : FlowLog} {body : MethodBody}
    (hframes : flow.Frames body) {finding : Finding}
    (hfinding : finding ∈ (flow.batch body).findings) :
    ∃ event ∈ flow.events, body.covers event.exception event.offset = false ∧
      finding.offset = event.offset ∧ finding.exception = event.exception.name := by
  obtain ⟨event, hevent, rfl⟩ := List.mem_map.mp hfinding
  rw [flow.escapes_eq hframes, List.mem_filter] at hevent
  exact ⟨event, hevent.1, by simpa using hevent.2, rfl, rfl⟩

theorem Detector.Ran.exists_flow {body : MethodBody} {reply : Reply Nat} {flushes : List Flush}
    (h : Ran context context.Raises body reply flushes) {count : Nat}
    (hresult : reply.result = .ok count) :
    ∃ flow : FlowLog, flow.Frames body ∧
      context.Records context.Raises none body.code flow.events ∧
      flushes.map Prod.fst = [flow.batch body] ∧ (flow.batch body).size = count := by
  cases h with
  | stray _ hreply =>
      rw [hreply] at hresult
      cases hresult
  | @done flow _ hframes hrecords hreply hflushes =>
      refine ⟨flow, hframes, hrecords, by rw [hflushes]; rfl, ?_⟩
      rw [hreply] at hresult
      cases haccept : context.accept (flow.batch body) with
      | error failure =>
          rw [haccept] at hresult
          cases hresult
      | ok taken =>
          rw [haccept] at hresult
          exact Except.ok.inj hresult

def ioException : ClassName := ⟨"java.io.IOException"⟩

/-- Opening a file throws a checked exception and an unchecked one. -/
def filesContext : Context :=
  let opening : MethodDecl :=
    { name := "open"
      descriptor := "()V"
      flags := .ofFlag .staticMember
      exceptions := [.runtimeException, ioException] }
  let exceptions := Classpath.javaLang.insert { name := ioException, parent := some .exception }
  let classes := exceptions.insert
    { name := ⟨"a.Files"⟩, parent := some .object, methods := [opening] }
  .new {} classes.lookup fun _ => .ok ()

/-- A method that opens a file, throws where it catches and throws where it does not. -/
def readerBody : MethodBody :=
  { className := ⟨"a.Reader"⟩
    method := { name := "read", descriptor := "()V" }
    code :=
      [⟨0, .invoke ⟨⟨"a.Files"⟩, "open", "()V"⟩ .static⟩,
        ⟨1, .athrow (some "Ljava/io/IOException;")⟩,
        ⟨2, .athrow (some "Ljava/io/IOException;")⟩]
    handlers := [⟨1, 2, 2, some ioException⟩] }

def readerMemo : Memo :=
  ((filesContext.resolve ioException).run {}).memo

/-- Along superclasses, every finding of a method is an exception that the method lets out: an
instruction at its offset is the origin, no row of the exception table stops it, and the throws
clause does not allow it. -/
theorem findings_exposed (context : Context) (detector : Detector) (memo : Memo) (body : MethodBody)
    (count : Nat) (hmode : context.config.strategy = .hierarchy)
    (hreachable : detector.Reachable context memo) (hidle : detector.phase = .idle)
    (hcode : body.method.hasCode = true)
    (hresult : ((detector.runMethod context body).run memo).value.result = .ok count) :
    ∃ batch, ((detector.runMethod context body).run memo).batches = [batch] ∧
      batch.size = count ∧
      ∀ finding ∈ batch.findings, ∃ above,
        Ascent context.source finding.exception above ∧
        context.Exposed body finding.offset finding.exception above := by
  have hhierarchy : context.usesHierarchy = true := by simp [Context.usesHierarchy, hmode]
  obtain rfl := hreachable.eq_empty_of_idle hidle
  obtain ⟨-, hran⟩ :=
    Detector.runMethod_ensures context body hcode memo hreachable.memo_reachable
  obtain ⟨flow, hframes, hrecords, hbatches, hsize⟩ := hran.exists_flow hresult
  rw [Outcome.map_flushes] at hbatches
  refine ⟨flow.batch body, hbatches, hsize, ?_⟩
  intro finding hfinding
  obtain ⟨event, hevent, hcovers, hoffset, hexception⟩ :=
    FlowLog.exists_event_of_finding hframes hfinding
  obtain ⟨above, habove, hancestors, _⟩ := (hrecords.admitted event hevent).ascent hhierarchy
  obtain ⟨instruction, hinstruction, call, raised, hraised, hmem⟩ :=
    hrecords.exists_raises hevent
  obtain ⟨huncaught, hspecific, hroot, hundeclared⟩ :=
    (body.covers_eq_false_iff event.exception event.offset).mp hcovers
  rw [hancestors] at huncaught hundeclared
  rw [hoffset, hexception]
  refine ⟨above, habove, ?_, huncaught, hspecific, hroot, hundeclared⟩
  exact ⟨instruction, hinstruction, (hraised.offset event hmem).symm,
    hraised.origin hhierarchy hmem hancestors⟩

theorem findings_exposed_reader :
    filesContext.config.strategy = .hierarchy ∧
      ({} : Detector).Reachable filesContext readerMemo ∧ ({} : Detector).phase = .idle ∧
      readerBody.method.hasCode = true ∧
      ((({} : Detector).runMethod filesContext readerBody).run readerMemo).value.result = .ok 2 ∧
      ∃ batch, ((({} : Detector).runMethod filesContext readerBody).run readerMemo).batches =
          [batch] ∧
        batch.size = 2 ∧
        ∀ finding ∈ batch.findings, ∃ above,
          Ascent filesContext.source finding.exception above ∧
          filesContext.Exposed readerBody finding.offset finding.exception above := by
  have hreachable : ({} : Detector).Reachable filesContext readerMemo :=
    .fresh (.resolve .empty ioException)
  have hresult : ((({} : Detector).runMethod filesContext readerBody).run
      readerMemo).value.result = .ok 2 := by
    rfl
  exact ⟨rfl, hreachable, rfl, rfl, hresult,
    findings_exposed filesContext {} readerMemo readerBody 2 rfl hreachable rfl rfl hresult⟩

def Instruction.isCast (instruction : Instruction) : Bool :=
  match instruction.kind with
  | .checkCast _ => true
  | _ => false

namespace Context

/-- The method that the code before an instruction has just called: the callee of the last
instruction that is no cast, if that is a call. -/
def callBefore (context : Context) (before : List Instruction) : Option (ClassName × String) :=
  match (before.reverse.find? fun instruction => !instruction.isCast).map Instruction.kind with
  | some (.invoke target dispatch) =>
    (context.callee? target dispatch).map fun callee => (callee.owner, callee.method.name)
  | _ => none

/-- The class resolves afresh to an exception that counts and that the method does not cover. -/
def escapes (context : Context) (body : MethodBody) (instruction : Instruction)
    (name : ClassName) : Bool :=
  context.surely (fun lineage => context.counts instruction.kind lineage &&
    !body.covers lineage instruction.offset) name

/-- The exceptions that escape at an instruction, with its offset. -/
def escapesAt (context : Context) (body : MethodBody) (before : List Instruction)
    (instruction : Instruction) : List (Nat × ClassName) :=
  ((context.mentioned (context.callBefore before) instruction.kind).filter
    (context.escapes body instruction)).map fun name => (instruction.offset, name)

/-- The exceptions that escape from code, instruction by instruction. -/
def escapesFrom (context : Context) (body : MethodBody) :
    (before code : List Instruction) → List (Nat × ClassName)
  | _, [] => []
  | before, instruction :: code =>
    context.escapesAt body before instruction ++
      context.escapesFrom body (before ++ [instruction]) code

/-- Looking back over the code finds the call that is kept in mind while it is read. -/
theorem callBefore_append (context : Context) (before : List Instruction)
    (instruction : Instruction) :
    context.callBefore (before ++ [instruction]) =
      context.callAfter (context.callBefore before) instruction.kind := by
  obtain ⟨offset, kind⟩ := instruction
  unfold callBefore
  rw [List.reverse_append, List.reverse_singleton, List.singleton_append]
  cases kind with
  | checkCast target => rw [List.find?_cons_of_neg (by simp [Instruction.isCast])]; rfl
  | _ => rw [List.find?_cons_of_pos (by simp [Instruction.isCast])]; rfl

end Context

/-- An event that the method does not cover, as it stands in the findings. -/
def FlowLog.uncovered (body : MethodBody) (events : List ThrowEvent) : List (Nat × ClassName) :=
  (events.filter fun event => !body.covers event.exception event.offset).map fun event =>
    (event.offset, event.exception.name)

theorem FlowLog.uncovered_append (body : MethodBody) (first second : List ThrowEvent) :
    uncovered body (first ++ second) = uncovered body first ++ uncovered body second := by
  simp [uncovered]

namespace Context.Raises

variable {call : Option (ClassName × String)} {instruction : Instruction}
  {events : List ThrowEvent}

theorem exception_eq (h : context.Raises call instruction events) {event : ThrowEvent}
    (hevent : event ∈ events) {lineage : Lineage}
    (hfresh : context.freshLineage? event.exception.name = some lineage) :
    event.exception = lineage := by
  obtain ⟨hname, hadmits⟩ := freshLineage?_admits hfresh
  exact (h.admitted event hevent).unique hadmits hname.symm

theorem uncovered_eq (h : context.Raises call instruction events) (body : MethodBody) :
    FlowLog.uncovered body events =
      ((events.filter fun event => !body.covers event.exception event.offset).map fun event =>
        event.exception.name).map fun name => (instruction.offset, name) := by
  rw [FlowLog.uncovered, List.map_map]
  apply List.map_congr_left
  intro event hevent
  simp [h.offset event (List.mem_filter.mp hevent).1]

/-- What is raised and not covered is among the names the instruction mentions, in order, and so it
is among those of them that pass a test which nothing uncovered fails. -/
theorem uncovered_sublist (h : context.Raises call instruction events) (body : MethodBody)
    {names : List ClassName} {test : ClassName → Bool}
    (hnames : (context.mentioned call instruction.kind).Sublist names)
    (htest : ∀ event ∈ events, body.covers event.exception event.offset = false →
      test event.exception.name = true) :
    (FlowLog.uncovered body events).Sublist
      ((names.filter test).map fun name => (instruction.offset, name)) := by
  rw [h.uncovered_eq body]
  apply List.Sublist.map
  have huncovered : ((events.filter fun event => !body.covers event.exception event.offset).map
      fun event => event.exception.name).Sublist names :=
    ((List.filter_sublist.map _).trans h.sublist).trans hnames
  have hall := huncovered.filter test
  rw [List.filter_eq_self.mpr] at hall
  · exact hall
  · intro name hname
    obtain ⟨event, hmem, rfl⟩ := List.mem_map.mp hname
    obtain ⟨hevent, hcovers⟩ := List.mem_filter.mp hmem
    exact htest event hevent (by simpa using hcovers)

theorem escapesAt_sublist {before : List Instruction}
    (h : context.Raises (context.callBefore before) instruction events) (body : MethodBody) :
    (context.escapesAt body before instruction).Sublist (FlowLog.uncovered body events) := by
  rw [h.uncovered_eq body, escapesAt]
  apply List.Sublist.map
  have hdue : (context.mentioned (context.callBefore before) instruction.kind).filter
        (context.escapes body instruction) =
      ((context.mentioned (context.callBefore before) instruction.kind).filter
        (context.surely (context.counts instruction.kind))).filter
          (context.escapes body instruction) := by
    rw [List.filter_filter]
    apply List.filter_congr
    intro name _
    cases hfresh : context.freshLineage? name with
    | none => simp [escapes, surely, hfresh]
    | some lineage =>
        simp only [escapes, surely, hfresh, Option.any_some]
        cases context.counts instruction.kind lineage <;> simp
  have hkept : (events.filter fun event => context.escapes body instruction event.exception.name) =
      (events.filter fun event => !body.covers event.exception event.offset).filter fun event =>
        context.escapes body instruction event.exception.name := by
    rw [List.filter_filter]
    apply List.filter_congr
    intro event hevent
    cases hfresh : context.freshLineage? event.exception.name with
    | none => simp [escapes, surely, hfresh]
    | some lineage =>
        obtain rfl := h.exception_eq hevent hfresh
        simp only [escapes, surely, hfresh, Option.any_some, h.offset event hevent]
        cases body.covers event.exception instruction.offset <;> simp
  rw [hdue]
  refine (h.complete.filter (context.escapes body instruction)).trans ?_
  rw [List.filter_map]
  apply List.Sublist.map
  have hcomp : (context.escapes body instruction ∘ fun event : ThrowEvent =>
      event.exception.name) = fun event => context.escapes body instruction event.exception.name :=
    rfl
  rw [hcomp, hkept]
  exact List.filter_sublist

end Context.Raises

theorem Context.Records.escapesFrom_sublist {before code : List Instruction}
    {events : List ThrowEvent}
    (h : context.Records context.Raises (context.callBefore before) code events)
    (body : MethodBody) :
    (context.escapesFrom body before code).Sublist (FlowLog.uncovered body events) := by
  induction code generalizing before events with
  | nil => exact List.nil_sublist _
  | cons instruction code ih =>
      cases h with
      | cons hraised hrest =>
          rw [← context.callBefore_append before instruction] at hrest
          rw [FlowLog.uncovered_append]
          exact (hraised.escapesAt_sublist body).append (ih hrest)

theorem FlowLog.batch_eq {flow : FlowLog} {body : MethodBody} (hframes : flow.Frames body) :
    flow.batch body = .ofBody body
      ((uncovered body flow.events).map fun escape => .ofBody body escape.1 escape.2) := by
  rw [uncovered, ← flow.escapes_eq hframes, batch, List.map_map]
  rfl

/-- Every exception that escapes from a method is found as often as it escapes and in the order of
the code, whichever way exceptions are compared. -/
theorem escapes_found (context : Context) (detector : Detector) (memo : Memo) (body : MethodBody)
    (count : Nat) (hreachable : detector.Reachable context memo)
    (hidle : detector.phase = .idle) (hcode : body.method.hasCode = true)
    (hresult : ((detector.runMethod context body).run memo).value.result = .ok count) :
    ∃ batch, ((detector.runMethod context body).run memo).batches = [batch] ∧
      (context.escapesFrom body [] body.code).Sublist
        (batch.findings.map fun finding => (finding.offset, finding.exception)) := by
  obtain rfl := hreachable.eq_empty_of_idle hidle
  obtain ⟨-, hran⟩ :=
    Detector.runMethod_ensures context body hcode memo hreachable.memo_reachable
  obtain ⟨flow, hframes, hrecords, hbatches, _⟩ := hran.exists_flow hresult
  rw [Outcome.map_flushes] at hbatches
  refine ⟨flow.batch body, hbatches, ?_⟩
  rw [FlowLog.batch_eq hframes]
  have hsublist : (context.escapesFrom body [] body.code).Sublist
      (FlowLog.uncovered body flow.events) :=
    Context.Records.escapesFrom_sublist hrecords body
  simpa [Batch.ofBody, Finding.ofBody, Function.comp_def] using hsublist

theorem escapes_found_reader :
    ({} : Detector).Reachable filesContext readerMemo ∧ ({} : Detector).phase = .idle ∧
      readerBody.method.hasCode = true ∧
      ((({} : Detector).runMethod filesContext readerBody).run readerMemo).value.result = .ok 2 ∧
      filesContext.escapesFrom readerBody [] readerBody.code =
        [(0, ioException), (2, ioException)] ∧
      ∃ batch, ((({} : Detector).runMethod filesContext readerBody).run readerMemo).batches =
          [batch] ∧
        (filesContext.escapesFrom readerBody [] readerBody.code).Sublist
          (batch.findings.map fun finding => (finding.offset, finding.exception)) := by
  have hreachable : ({} : Detector).Reachable filesContext readerMemo :=
    .fresh (.resolve .empty ioException)
  have hresult : ((({} : Detector).runMethod filesContext readerBody).run
      readerMemo).value.result = .ok 2 := by
    rfl
  exact ⟨hreachable, rfl, rfl, hresult, rfl,
    escapes_found filesContext {} readerMemo readerBody 2 hreachable rfl rfl hresult⟩

end ExceptionFlow
