import ExceptionFlow.Proofs.Reading
import ExceptionFlow.Proofs.Thinning
import ExceptionFlow.Proofs.Throwables
/-!
One method read twice, over all classes and over some of them. As long as no call hands an exception
on, the full reading keeps ahead: its memo knows whatever the thin one knows, and it finds whatever
the thin one finds, unless an unchecked class beyond the limit gets in the way.
-/
namespace ExceptionFlow

theorem Lineage.EndsWithin.mono {memo other : Memo} {budget : Nat} {above : List ClassName}
    (h : EndsWithin memo budget above) (hknows : ∀ name, memo.Knows name → other.Knows name) :
    EndsWithin other budget above := by
  rcases h with hlength | ⟨known, hmem, hknown⟩
  · exact Or.inl hlength
  · exact Or.inr ⟨known, hmem, hknows known hknown⟩

namespace Context

variable {thin context : Context}

/-- No method that hands exceptions on is declared by a class that is there. -/
def IdiomFree (context : Context) : Prop :=
  ∀ idiom ∈ context.config.idioms, ∀ cls, context.source idiom.owner ≠ .ok cls

theorem IdiomFree.handsOn_callAfter (hfree : context.IdiomFree) (hnamed : context.source.Named)
    {call : Option (ClassName × String)} (hcall : context.handsOn call = false)
    (kind : InstructionKind) : context.handsOn (context.callAfter call kind) = false := by
  cases kind with
  | invoke target dispatch =>
      cases hcallee : context.callee? target dispatch with
      | none => simp [callAfter, hcallee, handsOn]
      | some callee =>
          obtain ⟨-, hresolve⟩ := callee?_eq_some_iff.mp hcallee
          obtain ⟨cls, hcls⟩ := Callee.exists_owner_of_resolve hnamed hresolve
          have hidiom : context.config.isIdiom callee.owner callee.method.name = false := by
            rw [Bool.eq_false_iff]
            intro hidiom
            exact hfree _ (List.contains_iff_mem.mp hidiom) cls hcls
          simp [callAfter, hcallee, handsOn, hidiom]
  | checkCast target => exact hcall
  | athrow stackTop => rfl
  | store slot => rfl
  | load slot => rfl
  | ret => rfl
  | other => rfl

/-- A thin reading that the full one keeps ahead of. -/
structure Follows (thin context : Context) : Prop extends thin.Thins context where
  hierarchy : context.usesHierarchy = true
  within : ∀ name above, Ascent thin.source name above → name ≠ .throwable →
    ¬ IsChecked (name :: above) → above.length ≤ context.config.maxDepth
  named : context.source.Named
  free : context.IdiomFree

namespace Follows

variable (h : thin.Follows context)
include h

theorem thinHierarchy : thin.usesHierarchy = true :=
  h.usesHierarchy.trans h.hierarchy

theorem thinNamed : thin.source.Named :=
  fun name cls hcls => h.named name cls (h.source name cls hcls)

theorem thinFree : thin.IdiomFree := by
  intro idiom hidiom cls hcls
  rw [h.config] at hidiom
  exact h.free idiom hidiom cls (h.source _ _ hcls)

end Follows

/-- The memos of two readings, the thin one and the full one. -/
structure Trails (thin context : Context) (thinMemo memo : Memo) : Prop where
  thin : thinMemo.Reachable thin
  full : memo.Reachable context
  knows : ∀ name, thinMemo.Knows name → memo.Knows name

namespace Follows

variable (h : thin.Follows context) {thinMemo memo : Memo}
  (htrails : thin.Trails context thinMemo memo)
include h htrails

theorem resolve_eq_ok {name : ClassName} {lineage : Lineage}
    (hok : ((thin.resolve name).run thinMemo).value = .ok lineage) :
    ((context.resolve name).run memo).value = .ok lineage := by
  obtain ⟨above, habove, hends, rfl⟩ :=
    (Context.resolve_eq_ok_iff h.thinHierarchy htrails.thin name lineage).mp hok
  rw [h.config] at hends
  exact (Context.resolve_eq_ok_iff h.hierarchy htrails.full name _).mpr
    ⟨above, habove.of_within h.source,
      hends.imp (htrails.knows name) fun hends => hends.mono htrails.knows, rfl⟩

theorem resolve_trails (name : ClassName) :
    thin.Trails context ((thin.resolve name).run thinMemo).memo
      ((context.resolve name).run memo).memo where
  thin := htrails.thin.resolve name
  full := htrails.full.resolve name
  knows other hother := by
    rw [knows_resolve_iff h.thinHierarchy] at hother
    rw [knows_resolve_iff h.hierarchy]
    rcases hother with hother | ⟨rfl, lineage, hok⟩
    · exact Or.inl (htrails.knows other hother)
    · exact Or.inr ⟨rfl, lineage, h.resolve_eq_ok htrails hok⟩

end Follows

/-- The names that the first pass over a throws clause keeps in the two readings. What only the thin
reading keeps is known to the full one, and it never resolves to anything that could be found. -/
inductive Kept (thin : Context) (memo : Memo) : (thinNames names : List ClassName) → Prop where
  | nil : Kept thin memo [] []
  | both {thinNames names : List ClassName} (name : ClassName)
      (h : Kept thin memo thinNames names) :
      Kept thin memo (name :: thinNames) (name :: names)
  | lost {thinNames names : List ClassName} {name : ClassName} (hknows : memo.Knows name)
      (hlost : ∀ above, Ascent thin.source name above → name = .throwable)
      (h : Kept thin memo thinNames names) : Kept thin memo (name :: thinNames) names

theorem Follows.checkedNames_trails (h : thin.Follows context) {thinMemo memo : Memo}
    (htrails : thin.Trails context thinMemo memo) (names : List ClassName) :
    thin.Trails context ((thin.checkedNames names).run thinMemo).memo
        ((context.checkedNames names).run memo).memo ∧
      thin.Kept ((context.checkedNames names).run memo).memo
        ((thin.checkedNames names).run thinMemo).value
        ((context.checkedNames names).run memo).value := by
  induction names generalizing thinMemo memo with
  | nil => exact ⟨htrails, .nil⟩
  | cons name names ih =>
      obtain ⟨hnext, hkept⟩ := ih (h.resolve_trails htrails name)
      cases hthin : ((thin.resolve name).run thinMemo).value with
      | ok lineage =>
          obtain ⟨hthinValue, hthinMemo⟩ := checkedNames_resolved hthin names
          obtain ⟨hvalue, hmemo⟩ := checkedNames_resolved (h.resolve_eq_ok htrails hthin) names
          rw [hthinMemo, hmemo, hthinValue, hvalue]
          refine ⟨hnext, ?_⟩
          cases lineage.isUnchecked with
          | true => exact hkept
          | false => exact .both name hkept
      | error failure =>
          obtain ⟨hthinValue, hthinMemo⟩ := checkedNames_refused hthin names
          rw [resolve_memo_of_error hthin] at hnext hkept
          rw [hthinMemo, hthinValue]
          cases hfull : ((context.resolve name).run memo).value with
          | error failure =>
              obtain ⟨hvalue, hmemo⟩ := checkedNames_refused hfull names
              rw [resolve_memo_of_error hfull] at hnext hkept
              rw [hmemo, hvalue]
              exact ⟨hnext, .both name hkept⟩
          | ok lineage =>
              obtain ⟨hvalue, hmemo⟩ := checkedNames_resolved hfull names
              rw [hmemo, hvalue]
              refine ⟨hnext, ?_⟩
              cases hunchecked : lineage.isUnchecked with
              | false => exact .both name hkept
              | true =>
                  have hknows := knows_resolve_self h.hierarchy hfull
                  refine .lost (knows_checkedNames h.hierarchy hknows names) ?_ hkept
                  -- an unchecked class within the limit would have resolved
                  intro above habove
                  by_contra hname
                  obtain ⟨other, hother, -, rfl⟩ :=
                    (Context.resolve_eq_ok_iff h.hierarchy htrails.full name lineage).mp hfull
                  obtain rfl := hother.unique (habove.of_within h.source)
                  have hchecked : ¬ IsChecked (name :: other) := by
                    rw [← isChecked_ofAncestors, ← Lineage.isUnchecked_eq_false_iff, hunchecked]
                    simp
                  have hlength := h.within name other habove hname hchecked
                  rw [← h.config] at hlength
                  have hok := (Context.resolve_eq_ok_iff h.thinHierarchy htrails.thin name _).mpr
                    ⟨other, habove, Or.inr (Or.inl hlength), rfl⟩
                  rw [hthin] at hok
                  cases hok

end Context

namespace FlowLog

variable {thin context : Context} {thinMemo memo : Memo}

/-- Whatever is found in the first log is found in the second one. -/
def Below (body : MethodBody) (thinFlow flow : FlowLog) : Prop :=
  (uncovered body thinFlow.events).Sublist (uncovered body flow.events)

namespace Below

variable {body : MethodBody} {thinFlow flow : FlowLog} (h : Below body thinFlow flow)
include h

theorem addBoth (events : List ThrowEvent) :
    Below body (thinFlow.addAll events) (flow.addAll events) := by
  simpa [Below, addAll, uncovered_append] using h

theorem addFull (events : List ThrowEvent) : Below body thinFlow (flow.addAll events) := by
  simpa [Below, addAll, uncovered_append] using h.trans (List.sublist_append_left _ _)

theorem addUnspecific {exception : Lineage} (hname : exception.name = .throwable) (offset : Nat) :
    Below body (thinFlow.addAll [⟨exception, offset⟩]) flow := by
  have hcovers : body.covers exception offset = true := by
    simp [MethodBody.covers, Lineage.isUnspecific, hname]
  have hnone : uncovered body [⟨exception, offset⟩] = [] := by
    simp [uncovered, hcovers]
  simpa [Below, addAll, uncovered_append, hnone] using h

end Below

theorem knows_addEvents (flow : FlowLog) (hmode : context.usesHierarchy = true) {name : ClassName}
    (hknows : memo.Knows name) (offset : Nat) (names : List ClassName) :
    ((flow.addEvents context offset names).run memo).memo.Knows name := by
  induction names generalizing flow memo with
  | nil => exact hknows
  | cons other names ih =>
      rw [(flow.run_addEvents_cons context offset other names memo).2]
      exact ih _ (Context.knows_resolve_of_knows hmode hknows other)

end FlowLog

namespace Context.Follows

open FlowLog

variable {thin context : Context} {thinMemo memo : Memo} {body : MethodBody}
  {thinFlow flow : FlowLog} (h : thin.Follows context)
include h

theorem addEvents_trails (htrails : thin.Trails context thinMemo memo)
    (hbelow : Below body thinFlow flow) {start : Memo} {thinNames names : List ClassName}
    (hkept : thin.Kept start thinNames names)
    (hstart : ∀ name, start.Knows name → memo.Knows name) (offset : Nat) :
    thin.Trails context ((thinFlow.addEvents thin offset thinNames).run thinMemo).memo
        ((flow.addEvents context offset names).run memo).memo ∧
      Below body ((thinFlow.addEvents thin offset thinNames).run thinMemo).value
        ((flow.addEvents context offset names).run memo).value := by
  induction hkept generalizing thinMemo memo thinFlow flow with
  | nil => exact ⟨htrails, hbelow⟩
  | both name _ ih =>
      obtain ⟨hthinValue, hthinMemo⟩ := thinFlow.run_addEvents_cons thin offset name _ thinMemo
      obtain ⟨hvalue, hmemo⟩ := flow.run_addEvents_cons context offset name _ memo
      rw [hthinValue, hthinMemo, hvalue, hmemo]
      refine ih (h.resolve_trails htrails name) ?_ ?_
      · cases hthin : ((thin.resolve name).run thinMemo).value with
        | ok lineage =>
            rw [h.resolve_eq_ok htrails hthin]
            exact hbelow.addBoth _
        | error failure =>
            rw [Except.toOption, Option.toList_none, List.map_nil, addAll_nil]
            exact hbelow.addFull _
      · intro other hother
        exact knows_resolve_of_knows h.hierarchy (hstart other hother) name
  | @lost thinNames _ name hknows hlost _ ih =>
      obtain ⟨hthinValue, hthinMemo⟩ :=
        thinFlow.run_addEvents_cons thin offset name thinNames thinMemo
      rw [hthinValue, hthinMemo]
      cases hthin : ((thin.resolve name).run thinMemo).value with
      | error failure =>
          rw [resolve_memo_of_error hthin, Except.toOption, Option.toList_none, List.map_nil,
            addAll_nil]
          exact ih htrails hbelow hstart
      | ok lineage =>
          obtain ⟨above, habove, -, rfl⟩ :=
            (Context.resolve_eq_ok_iff h.thinHierarchy htrails.thin name lineage).mp hthin
          refine ih ⟨htrails.thin.resolve name, htrails.full, ?_⟩ ?_ hstart
          · intro other hother
            rw [knows_resolve_iff h.thinHierarchy] at hother
            rcases hother with hother | ⟨rfl, -⟩
            · exact htrails.knows other hother
            · exact hstart other hknows
          · refine hbelow.addUnspecific ?_ offset
            rw [Lineage.name_ofAncestors]
            exact hlost above habove

theorem recordCall_trails (htrails : thin.Trails context thinMemo memo)
    (hbelow : Below body thinFlow flow) (target : CallTarget) (dispatch : Dispatch)
    (offset : Nat) :
    thin.Trails context ((thinFlow.recordCall thin target dispatch offset).run thinMemo).memo
        ((flow.recordCall context target dispatch offset).run memo).memo ∧
      Below body ((thinFlow.recordCall thin target dispatch offset).run thinMemo).value
        ((flow.recordCall context target dispatch offset).run memo).value := by
  cases hthin : thin.callee? target dispatch with
  | some callee =>
      obtain ⟨hthinValue, hthinMemo⟩ :=
        thinFlow.run_recordCall_some h.thinHierarchy hthin offset thinMemo
      obtain ⟨hvalue, hmemo⟩ :=
        flow.run_recordCall_some h.hierarchy (h.callee? hthin) offset memo
      rw [hthinValue, hthinMemo, hvalue, hmemo]
      obtain ⟨hchecked, hkept⟩ :=
        h.checkedNames_trails htrails callee.method.throwsClause.entries
      have hforgotten : Below body thinFlow.forgetCall flow.forgetCall := hbelow
      exact h.addEvents_trails hchecked hforgotten hkept (fun _ hname => hname) offset
  | none =>
      obtain ⟨hthinValue, hthinMemo⟩ := thinFlow.run_recordCall_none hthin offset thinMemo
      rw [hthinValue, hthinMemo]
      cases hfull : context.callee? target dispatch with
      | none =>
          obtain ⟨hvalue, hmemo⟩ := flow.run_recordCall_none hfull offset memo
          rw [hvalue, hmemo]
          exact ⟨htrails, hbelow⟩
      | some callee =>
          obtain ⟨-, hmemo⟩ := flow.run_recordCall_some h.hierarchy hfull offset memo
          obtain ⟨hnext, -, raised, -, hvalue⟩ :=
            flow.recordCall_plainly context.resolves_reachable target dispatch offset memo
              htrails.full
          refine ⟨⟨htrails.thin, hnext, ?_⟩, ?_⟩
          · intro name hname
            rw [hmemo]
            exact knows_addEvents _ h.hierarchy
              (knows_checkedNames h.hierarchy (htrails.knows name hname) _) offset _
          · rw [hvalue]
            exact hbelow.addFull raised

theorem recordThrow_trails (htrails : thin.Trails context thinMemo memo)
    (hbelow : Below body thinFlow flow) (hthinCall : thin.handsOn thinFlow.lastCall = false)
    (hcall : context.handsOn flow.lastCall = false) (stackTop : Option String) (offset : Nat) :
    thin.Trails context ((thinFlow.recordThrow thin stackTop offset).run thinMemo).memo
        ((flow.recordThrow context stackTop offset).run memo).memo ∧
      Below body ((thinFlow.recordThrow thin stackTop offset).run thinMemo).value
        ((flow.recordThrow context stackTop offset).run memo).value := by
  have hforgotten : Below body thinFlow.forgetCall flow.forgetCall := hbelow
  have hcounts : thin.counts (.athrow stackTop) = context.counts (.athrow stackTop) :=
    funext (h.counts (.athrow stackTop))
  cases hname : stackTop.bind ClassName.ofSignature? with
  | none =>
      obtain ⟨hthinValue, hthinMemo⟩ :=
        thinFlow.run_recordThrow_untyped thin hname offset thinMemo
      obtain ⟨hvalue, hmemo⟩ :=
        flow.run_recordThrow_untyped context hname offset memo
      rw [hthinValue, hthinMemo, hvalue, hmemo]
      exact ⟨htrails, hforgotten⟩
  | some name =>
      obtain ⟨hthinValue, hthinMemo⟩ :=
        thinFlow.run_recordThrow_typed hthinCall hname offset thinMemo
      obtain ⟨hvalue, hmemo⟩ := flow.run_recordThrow_typed hcall hname offset memo
      rw [hthinValue, hthinMemo, hvalue, hmemo, hcounts]
      refine ⟨h.resolve_trails htrails name, ?_⟩
      cases hthin : ((thin.resolve name).run thinMemo).value with
      | ok lineage =>
          rw [h.resolve_eq_ok htrails hthin]
          exact hforgotten.addBoth _
      | error failure =>
          rw [Except.toOption, Option.filter_none, Option.toList_none, List.map_nil, addAll_nil]
          exact hforgotten.addFull _

theorem recordInstruction_trails (htrails : thin.Trails context thinMemo memo)
    (hbelow : Below body thinFlow flow) (hthinCall : thin.handsOn thinFlow.lastCall = false)
    (hcall : context.handsOn flow.lastCall = false) (instruction : Instruction) :
    thin.Trails context ((thinFlow.recordInstruction thin instruction).run thinMemo).memo
        ((flow.recordInstruction context instruction).run memo).memo ∧
      Below body ((thinFlow.recordInstruction thin instruction).run thinMemo).value
        ((flow.recordInstruction context instruction).run memo).value := by
  obtain ⟨offset, kind⟩ := instruction
  cases kind with
  | athrow stackTop => exact h.recordThrow_trails htrails hbelow hthinCall hcall stackTop offset
  | invoke target dispatch => exact h.recordCall_trails htrails hbelow target dispatch offset
  | checkCast target => exact ⟨htrails, hbelow⟩
  | store slot => exact ⟨htrails, hbelow⟩
  | load slot => exact ⟨htrails, hbelow⟩
  | ret => exact ⟨htrails, hbelow⟩
  | other => exact ⟨htrails, hbelow⟩

theorem readAll_below (htrails : thin.Trails context thinMemo memo)
    (hbelow : Below body thinFlow flow) (hthinCall : thin.handsOn thinFlow.lastCall = false)
    (hcall : context.handsOn flow.lastCall = false) (code : List Instruction) :
    Below body ((thinFlow.readAll thin code).run thinMemo).value
      ((flow.readAll context code).run memo).value := by
  induction code generalizing thinMemo memo thinFlow flow with
  | nil => exact hbelow
  | cons instruction code ih =>
      obtain ⟨htrailsNext, hbelowNext⟩ :=
        h.recordInstruction_trails htrails hbelow hthinCall hcall instruction
      obtain ⟨-, -, thinRaised, -, hthinFlow⟩ :=
        thinFlow.recordInstruction_quietly instruction thinMemo htrails.thin
      obtain ⟨-, -, raised, -, hflow⟩ :=
        flow.recordInstruction_quietly instruction memo htrails.full
      rw [readAll, readAll, Action.run_bind, Action.run_bind]
      refine ih htrailsNext hbelowNext ?_ ?_
      · rw [hthinFlow]
        exact h.thinFree.handsOn_callAfter h.thinNamed hthinCall instruction.kind
      · rw [hflow]
        exact h.free.handsOn_callAfter h.named hcall instruction.kind

theorem warm_trails (htrails : thin.Trails context thinMemo memo) (names : List ClassName) :
    thin.Trails context (thin.warm thinMemo names) (context.warm memo names) := by
  induction names generalizing thinMemo memo with
  | nil => exact htrails
  | cons name names ih => exact ih (h.resolve_trails htrails name)

/-- The full reading of a method finds whatever the thin one finds. -/
theorem found_sublist (body : MethodBody) : (thin.found body).Sublist (context.found body) := by
  by_cases hread : body.method.hasCode = false ∨ body.stray? ≠ none
  · rw [found_eq_nil hread]
    exact List.nil_sublist _
  · rw [not_or, not_not, Bool.not_eq_false] at hread
    rw [found_eq hread.1 hread.2, found_eq hread.1 hread.2]
    obtain ⟨thinRegions, hthinValue, hthinMemo⟩ :=
      (Detector.startLog body).run_enterAll thin body body.handlers {}
    obtain ⟨regions, hvalue, hmemo⟩ :=
      (Detector.startLog body).run_enterAll context body body.handlers {}
    have hstart : thin.Trails context {} {} := ⟨.empty, .empty, fun _ hname => hname⟩
    have hbelow : Below body { Detector.startLog body with regions := thinRegions }
        { Detector.startLog body with regions } :=
      List.Sublist.refl _
    unfold reading
    rw [MethodBody.inside_eq_code hread.2, Action.run_bind, Action.run_bind, hthinValue, hthinMemo,
      hvalue, hmemo]
    exact h.readAll_below (h.warm_trails hstart _) hbelow rfl rfl body.code

end Context.Follows

end ExceptionFlow
