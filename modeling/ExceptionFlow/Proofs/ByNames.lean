import ExceptionFlow.Proofs.Strategies
import ExceptionFlow.Proofs.Verdicts
/-!
Exceptions compared by their names alone. Every name then stands for itself, so nothing is looked up
but the methods that are called, and nothing is remembered. What a method reports can be written
down as a list: the names that its instructions mention, less those that are caught or declared.
-/
namespace ExceptionFlow

/-- The exceptions that an instruction mentions, at its offset: a throw the class of its operand, a
call the classes that the method called declares. -/
def ClassSource.mentions (source : ClassSource) (instruction : Instruction) :
    List (Nat × ClassName) :=
  match instruction.kind with
  | .athrow stackTop =>
    (stackTop.bind ClassName.ofSignature?).toList.map fun name => (instruction.offset, name)
  | .invoke target dispatch =>
    if target.hasArrayOwner then []
    else
      match Callee.resolve source target dispatch with
      | .ok (some callee) =>
        callee.method.throwsClause.entries.map fun name => (instruction.offset, name)
      | _ => []
  | _ => []

/-- An exception of this name that is thrown at the offset is neither caught nor declared. -/
def MethodBody.Leaks (body : MethodBody) (offset : Nat) (name : ClassName) : Prop :=
  name ≠ .throwable ∧
    (¬ ∃ entry ∈ body.handlers, (entry.start ≤ offset ∧ offset < entry.stop) ∧
      (entry.catchType = none ∨ entry.catchType = some .throwable ∨
        entry.catchType = some name)) ∧
    .exception ∉ body.method.throwsClause ∧ name ∉ body.method.throwsClause

instance (body : MethodBody) (offset : Nat) (name : ClassName) :
    Decidable (body.Leaks offset name) :=
  inferInstanceAs (Decidable (_ ∧ _ ∧ _ ∧ _))

/-- A batch with a finding for each place. -/
def Batch.ofPlaces (body : MethodBody) (places : List (Nat × ClassName)) : Batch :=
  .ofBody body (places.map fun place => .ofBody body place.1 place.2)

@[simp]
theorem Batch.found_ofPlaces (body : MethodBody) (places : List (Nat × ClassName)) :
    (Batch.ofPlaces body places).found = places := by
  simp [found, ofPlaces, ofBody, Finding.ofBody, Function.comp_def]

theorem MethodBody.covers_singleton_eq_false_iff (body : MethodBody) (offset : Nat)
    (name : ClassName) :
    body.covers (.singleton name) offset = false ↔ body.Leaks offset name := by
  have hentry : ∀ entry : TableEntry,
      (∃ caught, entry.catchType = some caught ∧ caught ≠ .throwable ∧ caught ∉ [name]) ↔
        ¬ (entry.catchType = none ∨ entry.catchType = some .throwable ∨
          entry.catchType = some name) := by
    intro entry
    cases entry.catchType <;> simp
  rw [covers_eq_false_iff]
  simp only [Lineage.singleton, hentry, Leaks, List.forall_mem_singleton, not_exists, not_and,
    and_imp]
  constructor
  · rintro ⟨hrows, hname, hdeclared⟩
    exact ⟨hname, hrows, hdeclared⟩
  · rintro ⟨hname, hrows, hdeclared⟩
    exact ⟨hrows, hname, hdeclared⟩

/-- The event of an exception of which only the name is known. -/
def ThrowEvent.ofPlace (place : Nat × ClassName) : ThrowEvent :=
  { exception := .singleton place.2, offset := place.1 }

theorem FlowLog.batch_of_places {flow : FlowLog} {body : MethodBody}
    (hframes : flow.Frames body) {places : List (Nat × ClassName)}
    (hevents : flow.events = places.map ThrowEvent.ofPlace) :
    flow.batch body =
      .ofPlaces body (places.filter fun place => body.Leaks place.1 place.2) := by
  have hleaks : ∀ place : Nat × ClassName, (!body.covers (.singleton place.2) place.1) =
      decide (body.Leaks place.1 place.2) := by
    intro place
    rw [Bool.eq_iff_iff, Bool.not_eq_true', decide_eq_true_iff]
    exact body.covers_singleton_eq_false_iff place.1 place.2
  unfold batch Batch.ofPlaces
  rw [flow.escapes_eq hframes, hevents, List.filter_map, List.map_map]
  simp only [Function.comp_def, ThrowEvent.ofPlace, hleaks]
  rfl

namespace Context

variable {context : Context}

/-- By names alone, every name stands for itself. -/
def NamesItself (name : ClassName) (result : Option Lineage) : Prop :=
  result = some (.singleton name)

theorem resolves_textual (hmode : context.usesHierarchy = false) (memo : Memo) :
    context.Resolves (· = memo) NamesItself where
  keeps name _ hmemo := by
    rw [run_resolve_textual hmode]
    exact hmemo
  replies name _ _ := by
    rw [run_resolve_textual hmode]
    rfl
  named name lineage hanswers := by
    rw [Option.some.inj hanswers]
    rfl

theorem Traced.eq_singletons {names : List ClassName} {lineages : List Lineage}
    (h : Traced NamesItself names lineages) : lineages = names.map .singleton := by
  induction h with
  | nil => rfl
  | skip hanswers => cases hanswers
  | take hanswers _ ih => rw [Option.some.inj hanswers, ih, List.map_cons]

/-- What an instruction mentions does not hang on the call before it. -/
theorem mentions_eq (hmode : context.usesHierarchy = false) (call : Option (ClassName × String))
    (instruction : Instruction) :
    context.source.mentions instruction =
      (context.mentioned call instruction.kind).map fun name => (instruction.offset, name) := by
  unfold ClassSource.mentions
  cases instruction.kind with
  | athrow stackTop => simp [mentioned, handsOn_textual hmode]
  | invoke target dispatch =>
      simp only [mentioned, callee?]
      cases target.hasArrayOwner with
      | true => simp
      | false =>
          rcases Callee.resolve context.source target dispatch with _ | (_ | callee) <;>
            simp [Except.toOption]
  | _ => rfl

/-- An instruction raises the exceptions that it mentions. -/
theorem Raised.eq_places (hmode : context.usesHierarchy = false)
    {call : Option (ClassName × String)} {instruction : Instruction} {events : List ThrowEvent}
    (h : context.Raised NamesItself call instruction events) :
    events = (context.source.mentions instruction).map ThrowEvent.ofPlace := by
  rw [mentions_eq hmode call]
  cases h with
  | nothing hmentioned => rw [hmentioned, List.map_nil, List.map_nil]
  | thrown hmentioned hanswers =>
      cases hanswers
      simp [hmentioned, counts, hmode, ThrowEvent.ofPlace]
  | called hcallee hkept hlineages =>
      cases hkept with
      | hierarchy hother =>
          rw [hmode] at hother
          cases hother
      | textual =>
          rw [hlineages.eq_singletons]
          simp [mentioned, hcallee, ThrowEvent.ofPlace, Function.comp_def]

theorem Records.eq_places (hmode : context.usesHierarchy = false)
    {call : Option (ClassName × String)} {code : List Instruction} {events : List ThrowEvent}
    (h : context.Records (context.Raised NamesItself) call code events) :
    events = (code.flatMap context.source.mentions).map ThrowEvent.ofPlace := by
  induction h with
  | nil => rfl
  | cons hraised _ ih => rw [hraised.eq_places hmode, ih, List.flatMap_cons, List.map_append]

end Context

section Memo

variable {context : Context} {inv : Memo → Prop} {answers : ClassName → Option Lineage → Prop}

/-- From every memo with the invariant the action comes to another one. -/
abbrev Action.Keeps {α : Type} (inv : Memo → Prop) (action : Action α) : Prop :=
  action.Ensures inv fun _ _ => True

theorem Action.Keeps.bind {α β : Type} {action : Action α} {next : α → Action β}
    (hfirst : action.Keeps inv) (hnext : ∀ value, (next value).Keeps inv) :
    (action >>= next).Keeps inv :=
  Action.Ensures.bind hfirst fun value _ _ => hnext value

theorem Action.Keeps.pure {α : Type} (value : α) : (Pure.pure value : Action α).Keeps inv :=
  Action.Ensures.pure trivial

theorem Action.Yields.keeps {α : Type} {action : Action α} {value : α} {flushes : List Flush}
    (h : action.Yields value flushes) : action.Keeps inv :=
  h.ensures trivial

theorem Action.Plainly.keeps {α : Type} {action : Action α} {post : α → Prop}
    (h : action.Plainly inv post) : action.Keeps inv :=
  Action.Ensures.mono h.quietly fun _ _ _ => trivial

namespace Detector

theorem start_keeps (detector : Detector) (body : MethodBody) :
    (detector.start body).Keeps inv := by
  unfold start
  split
  · refine .bind (Action.Yields.log _).keeps fun _ => ?_
    exact .bind body.method.readThrowsClause_yields.keeps fun _ => .pure _
  · exact .pure _

theorem addEntry_keeps (h : context.Resolves inv answers) (detector : Detector)
    (entry : TableEntry) : (detector.addEntry context entry).Keeps inv := by
  unfold addEntry
  split
  · exact .pure _
  · refine .bind (detector.flow.recordEntry_plainly h entry).keeps fun recorded => ?_
    obtain ⟨regions, -, hchecked⟩ := recorded.checkLastRegion_yields context _
    exact .bind hchecked.keeps fun _ => .pure _

theorem step_keeps (h : context.Resolves inv answers) (detector : Detector)
    (instruction : Instruction) : (detector.step context instruction).Keeps inv := by
  unfold step
  split
  · exact .pure _
  · split
    · exact .bind (detector.flow.recordInstruction_plainly h instruction).keeps fun _ => .pure _
    · exact .pure _

theorem finish_keeps (context : Context) (detector : Detector) :
    (detector.finish context).Keeps inv := by
  unfold finish
  split
  · exact .pure _
  · refine .bind (detector.reconcile_yields _).keeps fun _ => ?_
    exact .bind (Action.Yields.flush _ _).keeps fun _ => .pure _

theorem forEach_keeps {α : Type} {operation : Detector → α → Action (Reply Unit)}
    (hoperation : ∀ detector item, (operation detector item).Keeps inv) (detector : Detector)
    (items : List α) : (detector.forEach operation items).Keeps inv := by
  induction items generalizing detector with
  | nil => exact .pure _
  | cons item items ih =>
      unfold forEach
      refine .bind (hoperation detector item) ?_
      rintro ⟨_ | _, next⟩
      · exact .pure _
      · exact ih next

theorem scan_keeps (h : context.Resolves inv answers) (detector : Detector)
    (body : MethodBody) : (detector.scan context body).Keeps inv := by
  unfold scan
  refine .bind (detector.start_keeps body) ?_
  rintro ⟨_ | _, started⟩
  · exact .pure _
  · refine .bind (forEach_keeps (addEntry_keeps h) started body.handlers) ?_
    rintro ⟨_ | _, entered⟩
    · exact .pure _
    · exact forEach_keeps (step_keeps h) entered body.code

theorem runMethod_keeps (h : context.Resolves inv answers) (detector : Detector)
    (body : MethodBody) : (detector.runMethod context body).Keeps inv := by
  unfold runMethod
  split
  · refine .bind (detector.scan_keeps h body) ?_
    rintro ⟨_ | _, scanned⟩
    · exact .pure _
    · exact scanned.finish_keeps context
  · exact .bind (Action.Yields.log _).keeps fun _ => .pure _

theorem runMethods_keeps (h : context.Resolves inv answers) (detector : Detector)
    (tally : Tally) (bodies : List MethodBody) :
    (detector.runMethods context tally bodies).Keeps inv := by
  induction bodies generalizing detector tally with
  | nil => exact .pure _
  | cons body bodies ih =>
      unfold runMethods
      split
      · refine .bind (detector.runMethod_keeps h body) ?_
        rintro ⟨_ | _, next⟩
        · exact .pure _
        · exact ih next _
      · exact ih detector tally

theorem apply_keeps (h : context.Resolves inv answers) (detector : Detector)
    (operation : Operation) : (detector.apply context operation).Keeps inv := by
  cases operation with
  | start body => exact .bind (detector.start_keeps body) fun _ => .pure _
  | addEntry entry => exact .bind (detector.addEntry_keeps h entry) fun _ => .pure _
  | step instruction => exact .bind (detector.step_keeps h instruction) fun _ => .pure _
  | finish => exact .bind (detector.finish_keeps context) fun _ => .pure _
  | reset => exact .pure _
  | runMethod body => exact .bind (detector.runMethod_keeps h body) fun _ => .pure _
  | runClass cls => exact .bind (detector.runMethods_keeps h {} cls.methods) fun _ => .pure _

/-- What resolving a class keeps, operations keep, whatever the detector. -/
theorem applyAll_keeps (h : context.Resolves inv answers) (detector : Detector)
    (operations : List Operation) : (detector.applyAll context operations).Keeps inv := by
  induction operations generalizing detector with
  | nil => exact .pure _
  | cons operation operations ih =>
      exact .bind (detector.apply_keeps h operation) fun reply => ih reply.detector

end Detector

end Memo

/-- A method without stray instructions hands over what its text lets out, whatever the memo. -/
theorem Detector.runMethod_textual {context : Context} (hmode : context.usesHierarchy = false)
    {body : MethodBody} (hcode : body.method.hasCode = true) (hstray : body.stray? = none) :
    let batch := Batch.ofPlaces body
      ((body.code.flatMap context.source.mentions).filter fun place => body.Leaks place.1 place.2)
    (({} : Detector).runMethod context body).Yields
      { result := (context.accept batch).map fun _ => batch.size, detector := {} }
      [(batch, context.accept batch)] := by
  intro batch memo
  obtain ⟨hmemo, hran⟩ := runMethod_ran (Context.resolves_textual hmode memo) hcode memo rfl
  cases hran with
  | stray hother =>
      rw [hstray] at hother
      cases hother
  | done _ hframes hrecords hreply hflushes =>
      have hbatch := FlowLog.batch_of_places hframes (hrecords.eq_places hmode)
      rw [hbatch] at hreply hflushes
      exact ⟨hreply, hmemo, hflushes⟩

/-- By names alone, a method that passes reports what its instructions mention and its text neither
catches nor declares, in order. What was analysed before and which calls hand exceptions on makes no
difference, and no operation ever fills the memo. -/
theorem found_byNames (context : Context) (detector : Detector) (memo : Memo)
    (visited : List TableEntry) (body : MethodBody) (count : Nat)
    (htextual : context.config.strategy = .textual)
    (hdetector : Detector.Operated detector memo visited) (hidle : detector.phase = .idle)
    (hcode : body.method.hasCode = true)
    (hresult : ((detector.runMethod context body).run memo).value.result = .ok count) :
    (∃ batch, ((detector.runMethod context body).run memo).batches = [batch] ∧
        batch.found = (body.code.flatMap context.source.mentions).filter fun place =>
          body.Leaks place.1 place.2) ∧
      (∀ idioms otherMemo,
        let other := { context with config := { context.config with idioms } }
        ((detector.runMethod other body).run otherMemo).value =
            ((detector.runMethod context body).run memo).value ∧
          ((detector.runMethod other body).run otherMemo).batches =
            ((detector.runMethod context body).run memo).batches) ∧
      ((detector.runMethod context body).run memo).memo = memo ∧
      ∀ (other : Detector) operations, ((other.applyAll context operations).run {}).memo = {} := by
  obtain rfl := hdetector.stands.eq_new hidle
  have hmode : context.usesHierarchy = false := by simp [Context.usesHierarchy, htextual]
  cases hstray : body.stray? with
  | some instruction =>
      obtain ⟨hrefused, -⟩ := Detector.runMethod_stray context hcode hstray memo
      rw [hrefused] at hresult
      cases hresult
  | none =>
      obtain ⟨hvalue, hmemo, hflushes⟩ := Detector.runMethod_textual hmode hcode hstray memo
      refine ⟨⟨_, ?_, Batch.found_ofPlaces body _⟩, ?_, hmemo, ?_⟩
      · rw [← Outcome.map_flushes, hflushes]
        rfl
      · intro idioms otherMemo other
        have hother : other.usesHierarchy = false := hmode
        obtain ⟨hotherValue, -, hotherFlushes⟩ :=
          Detector.runMethod_textual hother hcode hstray otherMemo
        refine ⟨hotherValue.trans hvalue.symm, ?_⟩
        rw [← Outcome.map_flushes, ← Outcome.map_flushes, hotherFlushes, hflushes]
      · exact fun other operations =>
          (other.applyAll_keeps (Context.resolves_textual hmode {}) operations {} rfl).1

/-- The method that is called declares a runtime exception, which is told by names from no other. -/
theorem found_byNames_reader :
    namesContext.config.strategy = .textual ∧ Detector.Operated {} {} [] ∧
      readerBody.method.hasCode = true ∧
      ((({} : Detector).runMethod namesContext readerBody).run {}).value.result = .ok 3 ∧
      ∃ batch, ((({} : Detector).runMethod namesContext readerBody).run {}).batches = [batch] ∧
        batch.found = [(0, .runtimeException), (0, ioException), (2, ioException)] := by
  have hresult : ((({} : Detector).runMethod namesContext readerBody).run {}).value.result =
      .ok 3 := by
    decide +kernel
  obtain ⟨⟨batch, hbatches, hfound⟩, -⟩ :=
    found_byNames namesContext {} {} [] readerBody 3 rfl .new rfl rfl hresult
  exact ⟨rfl, .new, rfl, hresult, batch, hbatches, hfound.trans (by decide +kernel)⟩

end ExceptionFlow
