import ExceptionFlow.Proofs.DeepClasses
import ExceptionFlow.Proofs.Strategies
/-!
A method read step by step. The log at the end of a method is what its rows and then its
instructions, one after another, make of the log it starts with, and its findings are the events of
that log which nothing covers.
-/
namespace ExceptionFlow

variable {context : Context}

namespace FlowLog

theorem run_addEvents_cons (flow : FlowLog) (context : Context) (offset : Nat) (name : ClassName)
    (names : List ClassName) (memo : Memo) :
    let resolved := (context.resolve name).run memo
    let next := ((flow.addAll (resolved.value.toOption.toList.map fun exception =>
      { exception, offset })).addEvents context offset names).run resolved.memo
    ((flow.addEvents context offset (name :: names)).run memo).value = next.value ∧
      ((flow.addEvents context offset (name :: names)).run memo).memo = next.memo := by
  obtain ⟨hvalue, hmemo⟩ := context.run_resolveOrRemark name memo
  rw [addEvents]
  cases hresolved : ((context.resolve name).run memo).value with
  | error failure =>
      rw [hresolved, Except.toOption] at hvalue
      simp [hvalue, hmemo, hresolved, Except.toOption]
  | ok exception =>
      rw [hresolved, Except.toOption] at hvalue
      simp [hvalue, hmemo, hresolved, Except.toOption, addEvent, addAll]

theorem run_recordCall_none (flow : FlowLog) {target : CallTarget} {dispatch : Dispatch}
    (hcallee : context.callee? target dispatch = none) (offset : Nat) (memo : Memo) :
    ((flow.recordCall context target dispatch offset).run memo).value = flow.forgetCall ∧
      ((flow.recordCall context target dispatch offset).run memo).memo = memo := by
  unfold recordCall
  cases harray : target.hasArrayOwner with
  | true => exact ⟨rfl, rfl⟩
  | false =>
      cases hresolve : Callee.resolve context.source target dispatch with
      | error cause => exact ⟨rfl, rfl⟩
      | ok found =>
          simp only [Context.callee?, harray, hresolve, Except.toOption, Bool.false_eq_true,
            if_false, Option.join_some] at hcallee
          subst hcallee
          exact ⟨rfl, rfl⟩

theorem run_recordThrow_untyped (flow : FlowLog) (context : Context) {stackTop : Option String}
    (hname : stackTop.bind ClassName.ofSignature? = none) (offset : Nat) (memo : Memo) :
    ((flow.recordThrow context stackTop offset).run memo).value = flow.forgetCall ∧
      ((flow.recordThrow context stackTop offset).run memo).memo = memo := by
  unfold recordThrow
  rw [hname]
  exact ⟨rfl, rfl⟩

theorem run_recordThrow_handed (flow : FlowLog) (hhands : context.handsOn flow.lastCall = true)
    (stackTop : Option String) (offset : Nat) (memo : Memo) :
    ((flow.recordThrow context stackTop offset).run memo).value = flow.forgetCall ∧
      ((flow.recordThrow context stackTop offset).run memo).memo = memo := by
  rw [← idiomCall?_isSome, Option.isSome_iff_exists] at hhands
  obtain ⟨call, hcall⟩ := hhands
  unfold recordThrow
  rw [hcall]
  cases stackTop.bind ClassName.ofSignature? <;> exact ⟨rfl, rfl⟩

theorem addThrow_yields (flow : FlowLog) (context : Context) (event : ThrowEvent)
    (stackTop : Option String) :
    (flow.addThrow context event).Yields (flow.addAll
      (if context.counts (.athrow stackTop) event.exception then [event] else [])) [] :=
  .of_plainly fun _ => flow.addThrow_plainly event stackTop

theorem run_recordThrow_typed (flow : FlowLog) (hhands : context.handsOn flow.lastCall = false)
    {stackTop : Option String} {name : ClassName}
    (hname : stackTop.bind ClassName.ofSignature? = some name) (offset : Nat) (memo : Memo) :
    let resolved := (context.resolve name).run memo
    ((flow.recordThrow context stackTop offset).run memo).value =
        flow.forgetCall.addAll ((resolved.value.toOption.filter
          (context.counts (.athrow stackTop))).toList.map fun exception =>
            { exception, offset }) ∧
      ((flow.recordThrow context stackTop offset).run memo).memo = resolved.memo := by
  have hcall : flow.idiomCall? context = none := by
    have hsome := flow.idiomCall?_isSome context
    rw [hhands] at hsome
    simpa using hsome
  obtain ⟨hvalue, hmemo⟩ := context.run_resolveOrRemark name memo
  unfold recordThrow addNamedThrow
  rw [hname, hcall]
  cases hresolved : ((context.resolve name).run memo).value with
  | error failure =>
      rw [hresolved, Except.toOption] at hvalue
      simp [hvalue, hmemo, hresolved, Except.toOption]
  | ok exception =>
      rw [hresolved, Except.toOption] at hvalue
      obtain ⟨hadded, hkept, -⟩ := flow.forgetCall.addThrow_yields context { exception, offset }
        stackTop ((context.resolve name).run memo).memo
      simp only [Action.run_bind, hvalue, hmemo, hresolved, hadded, hkept, Except.toOption,
        Option.filter_some]
      cases context.counts (.athrow stackTop) exception <;> simp

/-- Rows leave the events alone, and the memo resolves what they catch. -/
theorem run_enterAll (flow : FlowLog) (context : Context) (body : MethodBody)
    (entries : List TableEntry) (memo : Memo) :
    ∃ regions, ((flow.enterAll context body entries).run memo).value = { flow with regions } ∧
      ((flow.enterAll context body entries).run memo).memo =
        context.warm memo (entries.filterMap TableEntry.catchType) := by
  induction entries generalizing flow memo with
  | nil => exact ⟨flow.regions, rfl, rfl⟩
  | cons entry entries ih =>
      have hentry : ∃ regions,
          ((flow.recordEntry context entry).run memo).value = { flow with regions } ∧
            ((flow.recordEntry context entry).run memo).memo =
              context.warm memo entry.catchType.toList := by
        refine ⟨_, rfl, ?_⟩
        unfold recordEntry caughtBy
        cases entry.catchType with
        | none => rfl
        | some name => exact (context.run_resolveOrRemark name memo).2
      obtain ⟨entered, hvalue, hmemo⟩ := hentry
      obtain ⟨checked, -, hchecked⟩ :=
        checkLastRegion_yields { flow with regions := entered } context body
      obtain ⟨hcheckedValue, hcheckedMemo, -⟩ :=
        hchecked (context.warm memo entry.catchType.toList)
      obtain ⟨regions, hrest, hlast⟩ := ih { flow with regions := checked }
        (context.warm memo entry.catchType.toList)
      have hnames : (entry :: entries).filterMap TableEntry.catchType =
          entry.catchType.toList ++ entries.filterMap TableEntry.catchType := by
        cases hcatch : entry.catchType <;> simp [hcatch]
      refine ⟨regions, ?_, ?_⟩
      · simp only [enterAll, Action.run_bind, hvalue, hmemo, hcheckedValue, hcheckedMemo]
        exact hrest
      · simp only [enterAll, Action.run_bind, hvalue, hmemo, hcheckedValue, hcheckedMemo]
        rw [hnames, Context.warm_append]
        exact hlast

end FlowLog

/-- The findings of a method that is analysed before anything else. -/
def Context.found (context : Context) (body : MethodBody) : List (Nat × ClassName) :=
  ((({} : Detector).runMethod context body).run {}).batches.flatMap Batch.found

namespace Context

theorem found_eq {body : MethodBody} (hcode : body.method.hasCode = true)
    (hstray : body.stray? = none) :
    context.found body =
      FlowLog.uncovered body ((context.reading body).run {}).value.events := by
  obtain ⟨-, -, hframes, -⟩ := context.reading_quietly context.resolves_named body {} trivial
  rw [found, Detector.batches_runMethod hcode hstray, List.flatMap_singleton,
    FlowLog.found_batch hframes]

theorem found_eq_nil {body : MethodBody}
    (h : body.method.hasCode = false ∨ body.stray? ≠ none) : context.found body = [] := by
  cases hcode : body.method.hasCode with
  | false => simp [found, Detector.runMethod, hcode, Outcome.batches, Emission.batch?]
  | true =>
      have hstray : body.stray? ≠ none := h.resolve_left (by simp [hcode])
      obtain ⟨-, hran⟩ := Detector.runMethod_ensures context body hcode {} .empty
      cases hran with
      | stray _ _ hflushes =>
          rw [found, ← Outcome.map_flushes, hflushes]
          rfl
      | done hnone => exact absurd hnone hstray

end Context

end ExceptionFlow
