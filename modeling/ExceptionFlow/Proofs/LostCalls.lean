import ExceptionFlow.Proofs.History
import ExceptionFlow.Proofs.Trailing
/-!
Calls that are lost with the classes they are made on. A method that makes such a call can find an
exception which it does not find while the call is there: the call may have handed the exception on,
or it may have made a class known.
-/
namespace ExceptionFlow

/-- A class without slashes in its name can be on top of the stack. -/
theorem ClassName.exists_signature {name : ClassName} (hname : name.text ≠ "")
    (hslash : '/' ∉ name.text.toList) :
    ∃ stackTop : Option String, stackTop.bind ofSignature? = some name := by
  refine ⟨some (String.ofList ('L' :: (name.text.toList ++ [';']))), ?_⟩
  have hopen : Text.isBlank 'L' = false := by decide
  have hclose : Text.isBlank ';' = false := by decide
  have htrim : (Text.trim (String.ofList ('L' :: (name.text.toList ++ [';'])))).toList =
      'L' :: (name.text.toList ++ [';']) := by
    simp [Text.trim, hopen, hclose]
  have hinternal : ofInternal name.text = name := by
    have hkept : name.text.toList.map (fun char => if char = '/' then '.' else char) =
        name.text.toList.map id := by
      apply List.map_congr_left
      rintro char hchar
      refine if_neg ?_
      rintro rfl
      exact hslash hchar
    simp [ofInternal, dotted, hkept]
  simp only [Option.bind_some, ofSignature?, htrim]
  simp [hinternal, hname]

/-- A method that names classes in its exception table before it runs its code. It catches nothing
and declares nothing. -/
def MethodBody.probe (names : List ClassName) (code : List Instruction) : MethodBody :=
  { className := .object
    method := { name := "m", descriptor := "()V" }
    code
    handlers := names.map fun name => ⟨0, 0, 0, some name⟩ }

theorem MethodBody.covers_probe (names : List ClassName) (code : List Instruction)
    {lineage : Lineage} (hname : lineage.name ≠ .throwable) (offset : Nat) :
    (probe names code).covers lineage offset = false := by
  have hclause : (probe names code).method.throwsClause = {} := rfl
  have hnone : ∀ name, name ∉ ({} : ThrowsClause) := fun _ => List.not_mem_nil
  rw [covers_eq_false_iff, hclause]
  refine ⟨?_, hname, hnone _, fun name _ => hnone name⟩
  intro entry hentry hstart hstop
  obtain ⟨name, -, rfl⟩ := List.mem_map.mp hentry
  exact absurd hstop (Nat.not_lt_zero offset)

/-- A probe finds whatever its code leaves in the log, from the memo with its classes on. -/
theorem Context.found_probe (context : Context) (names : List ClassName) {code : List Instruction}
    (hstray : (MethodBody.probe names code).stray? = none) :
    ∃ flow : FlowLog, flow.events = [] ∧
      ∀ name, name ≠ .throwable → ∀ offset,
        ((offset, name) ∈ context.found (.probe names code) ↔
          ∃ event ∈ ((flow.readAll context code).run (context.warm {} names)).value.events,
            event.offset = offset ∧ event.exception.name = name) := by
  have hcode : (MethodBody.probe names code).method.hasCode = true :=
    MethodDecl.hasCode_of_public rfl
  have hnames : (MethodBody.probe names code).handlers.filterMap TableEntry.catchType = names := by
    simp [MethodBody.probe, List.filterMap_map]
  obtain ⟨regions, hvalue, hmemo⟩ := (Detector.startLog (.probe names code)).run_enterAll context
    (.probe names code) (MethodBody.probe names code).handlers {}
  refine ⟨{ Detector.startLog (.probe names code) with regions }, rfl, ?_⟩
  intro name hname offset
  have hread : ((context.reading (.probe names code)).run {}).value =
      ((({ Detector.startLog (.probe names code) with regions } : FlowLog).readAll context
        code).run (context.warm {} names)).value := by
    rw [reading, MethodBody.inside_eq_code hstray, Action.run_bind, hvalue, hmemo, hnames]
    rfl
  rw [found_eq hcode hstray, hread, FlowLog.uncovered]
  simp only [List.mem_map, List.mem_filter, Prod.mk.injEq, Bool.not_eq_true', and_assoc]
  constructor
  · rintro ⟨event, hevent, -, hoffset, hexception⟩
    exact ⟨event, hevent, hoffset, hexception⟩
  · rintro ⟨event, hevent, hoffset, rfl⟩
    exact ⟨event, hevent, MethodBody.covers_probe names code hname _, hoffset, rfl⟩

/-- Two readings of a probe that differ at one offset. -/
theorem Context.exists_not_found_sublist {thin context : Context} (names : List ClassName)
    (code : List Instruction) (hstray : (MethodBody.probe names code).stray? = none)
    {name : ClassName} (hname : name ≠ .throwable) (offset : Nat)
    (hthin : ∀ flow : FlowLog,
      ∃ event ∈ ((flow.readAll thin code).run (thin.warm {} names)).value.events,
        event.offset = offset ∧ event.exception.name = name)
    (hfull : ∀ flow : FlowLog, flow.events = [] →
      ∀ event ∈ ((flow.readAll context code).run (context.warm {} names)).value.events,
        event.offset = offset → event.exception.name ≠ name) :
    ∃ body, ¬ (thin.found body).Sublist (context.found body) := by
  refine ⟨.probe names code, fun hsublist => ?_⟩
  obtain ⟨flow, -, hfound⟩ := thin.found_probe names hstray
  have hmem := (hfound name hname offset).mpr (hthin flow)
  obtain ⟨flow, hempty, hfound⟩ := context.found_probe names hstray
  obtain ⟨event, hevent, hoffset, hexception⟩ :=
    (hfound name hname offset).mp (hsublist.subset hmem)
  exact hfull flow hempty event hevent hoffset hexception

namespace FlowLog

variable {context : Context} {memo last : Memo} {flow next : FlowLog} {offset : Nat}

theorem run_readAll_invoke {target : CallTarget} {dispatch : Dispatch}
    (h : ((flow.recordCall context target dispatch offset).run memo).value = next ∧
      ((flow.recordCall context target dispatch offset).run memo).memo = last)
    (code : List Instruction) :
    ((flow.readAll context (⟨offset, .invoke target dispatch⟩ :: code)).run memo).value =
      ((next.readAll context code).run last).value := by
  rw [← h.1, ← h.2]
  rfl

theorem run_readAll_athrow {stackTop : Option String}
    (h : ((flow.recordThrow context stackTop offset).run memo).value = next ∧
      ((flow.recordThrow context stackTop offset).run memo).memo = last)
    (code : List Instruction) :
    ((flow.readAll context (⟨offset, .athrow stackTop⟩ :: code)).run memo).value =
      ((next.readAll context code).run last).value := by
  rw [← h.1, ← h.2]
  rfl

theorem run_readAll_singleton (flow : FlowLog) (context : Context) (instruction : Instruction)
    (memo : Memo) :
    ((flow.readAll context [instruction]).run memo).value =
      ((flow.recordInstruction context instruction).run memo).value :=
  rfl

/-- A call makes the first class of its throws clause known if that resolves. -/
theorem knows_recordCall (flow : FlowLog) (hmode : context.usesHierarchy = true)
    {target : CallTarget} {dispatch : Dispatch} {name : ClassName} {names : List ClassName}
    (hdeclares : context.Declares target dispatch (name :: names)) {lineage : Lineage}
    (hresolved : ((context.resolve name).run memo).value = .ok lineage) (offset : Nat) :
    ((flow.recordCall context target dispatch offset).run memo).memo.Knows name := by
  obtain ⟨callee, hcallee, hclause⟩ := hdeclares
  have hknows := Context.knows_resolve_self hmode hresolved
  rw [(flow.run_recordCall_some hmode hcallee offset memo).2, hclause,
    (Context.checkedNames_resolved hresolved names).2]
  exact knows_addEvents _ hmode (Context.knows_checkedNames hmode hknows names) offset _

end FlowLog

namespace Context

variable {thin context : Context} {name parent : ClassName} {above rest : List ClassName}

theorem BeyondLimit.of_thins (h : thin.Thins context) (hbeyond : thin.BeyondLimit name above) :
    context.BeyondLimit name above where
  hierarchy := h.usesHierarchy.symm.trans hbeyond.hierarchy
  positive := h.config ▸ hbeyond.positive
  ascent := hbeyond.ascent.of_within h.source
  deep := h.config ▸ hbeyond.deep

theorem Thins.declares (h : thin.Thins context) {target : CallTarget} {dispatch : Dispatch}
    {names : List ClassName} (hdeclares : thin.Declares target dispatch names) :
    context.Declares target dispatch names := by
  obtain ⟨callee, hcallee, hnames⟩ := hdeclares
  exact ⟨callee, h.callee? hcallee, hnames⟩

/-- The classes to be named before the brink is reached. -/
def towardsBrink (context : Context) (above : List ClassName) : List ClassName :=
  (above.drop context.config.maxDepth).reverse

theorem Thins.warm_towardsBrink (h : thin.Thins context) (above : List ClassName) :
    context.warm {} (thin.towardsBrink above) = context.brink above := by
  rw [towardsBrink, brink, h.config]

/-- Without the first call, an unchecked class beyond the limit comes through the first pass of the
second call before anything above it is known. -/
theorem Thins.not_found_sublist_of_warming (h : thin.Thins context)
    (hbeyond : thin.BeyondLimit name (parent :: rest)) (hname : name ≠ .throwable)
    (hunchecked : ¬ IsChecked (name :: parent :: rest)) {lost target : CallTarget}
    (hlost : thin.callee? lost .static = none) (hwarms : context.Declares lost .static [parent])
    (hdeclares : thin.Declares target .static [name, parent]) :
    ∃ body, ¬ (thin.found body).Sublist (context.found body) := by
  refine exists_not_found_sublist (thin.towardsBrink (parent :: rest))
    [⟨0, .invoke lost .static⟩, ⟨1, .invoke target .static⟩] ?_ hname 1 ?_ ?_
  · simp [MethodBody.stray?, MethodBody.probe, MethodBody.spans]
  · -- the class comes in with the second call
    intro flow
    obtain ⟨⟨failure, hrefused⟩, known, hparent⟩ := hbeyond.brink_resolves
    rw [FlowLog.run_readAll_invoke (flow.run_recordCall_none hlost 0 _),
      FlowLog.run_readAll_singleton]
    exact ⟨_, FlowLog.mem_events_of_refused flow.forgetCall hbeyond
      (thin.brink_reachable (parent :: rest)) hrefused hparent hdeclares 1, rfl,
      Lineage.name_ofAncestors ..⟩
  · -- the superclass is known by then, so that the class is seen to be unchecked
    intro flow hempty event hevent hoffset
    have hfull := hbeyond.of_thins h
    have hmemo := context.brink_reachable (parent :: rest)
    rw [FlowLog.run_readAll_invoke ⟨rfl, rfl⟩, FlowLog.run_readAll_singleton,
      h.warm_towardsBrink] at hevent
    obtain ⟨-, known, hparent⟩ := hfull.brink_resolves
    obtain ⟨hnext, -, raised, hraises, hflow⟩ :=
      flow.recordCall_plainly context.resolves_reachable lost .static 0 _ hmemo
    have hresolved := resolve_of_knows_parent hfull.hierarchy hfull.positive hnext hfull.ascent
      (flow.knows_recordCall hfull.hierarchy hwarms hparent 0)
    have hlineage : (Lineage.ofAncestors name (parent :: rest)).isUnchecked = true := by
      rwa [← Bool.not_eq_false, Lineage.isUnchecked_eq_false_iff, isChecked_ofAncestors]
    refine (FlowLog.not_mem_events_of_unchecked _ hfull.hierarchy hnext hresolved hlineage
      hbeyond.ne_parent (h.declares hdeclares) 1 event hevent).resolve_left ?_
    intro hearlier
    rw [hflow] at hearlier
    have hraised : event ∈ raised := by
      simpa [FlowLog.afterInstruction, FlowLog.addAll, hempty] using hearlier
    have hzero := hraises.raises.offset event hraised
    rw [hoffset] at hzero
    cases hzero

/-- A call that hands exceptions on and declares none, and that is lost on the thin side. -/
structure HandsOver (thin context : Context) (call : CallTarget) (dispatch : Dispatch) : Prop
    extends thin.Thins context where
  hierarchy : context.usesHierarchy = true
  lost : thin.callee? call dispatch = none
  hands : ∃ callee, context.callee? call dispatch = some callee ∧
    callee.method.throwsClause.entries = [] ∧
      context.handsOn (some (callee.owner, callee.method.name)) = true

namespace HandsOver

variable {call : CallTarget} {dispatch : Dispatch} (h : thin.HandsOver context call dispatch)
include h

/-- With the call there, neither it nor the throw after it leaves a trace. -/
theorem run_readAll_handed (flow : FlowLog) (stackTop : Option String) (code : List Instruction)
    (memo : Memo) :
    ((flow.readAll context (⟨0, .invoke call dispatch⟩ :: ⟨1, .athrow stackTop⟩ :: code)).run
        memo).value =
      ((flow.forgetCall.readAll context code).run memo).value := by
  obtain ⟨callee, hcallee, hclause, hhands⟩ := h.hands
  have hcall : ((flow.recordCall context call dispatch 0).run memo).value =
        { flow with lastCall := some (callee.owner, callee.method.name) } ∧
      ((flow.recordCall context call dispatch 0).run memo).memo = memo := by
    have hpasses := flow.run_recordCall_some h.hierarchy hcallee 0 memo
    rw [hclause] at hpasses
    exact hpasses
  rw [FlowLog.run_readAll_invoke hcall,
    FlowLog.run_readAll_athrow (FlowLog.run_recordThrow_handed _ hhands stackTop 1 memo)]
  rfl

theorem run_readAll_lost (flow : FlowLog) (code : List Instruction) (memo : Memo) :
    ((flow.readAll thin (⟨0, .invoke call dispatch⟩ :: code)).run memo).value =
      ((flow.forgetCall.readAll thin code).run memo).value :=
  FlowLog.run_readAll_invoke (flow.run_recordCall_none h.lost 0 memo) code

/-- A checked exception within the limit is found where it is thrown once the call is lost. -/
theorem not_found_sublist_of_checked {stackTop : Option String}
    (hstack : stackTop.bind ClassName.ofSignature? = some name) (hname : name ≠ .throwable)
    (habove : Ascent thin.source name above) (hlength : above.length ≤ thin.config.maxDepth)
    (hthrowable : .throwable ∈ name :: above) (hchecked : IsChecked (name :: above)) :
    ∃ body, ¬ (thin.found body).Sublist (context.found body) := by
  refine exists_not_found_sublist []
    [⟨0, .invoke call dispatch⟩, ⟨1, .athrow stackTop⟩] ?_ hname 1 ?_ ?_
  · simp [MethodBody.stray?, MethodBody.probe, MethodBody.spans]
  · intro flow
    have hmode : thin.usesHierarchy = true := h.usesHierarchy.trans h.hierarchy
    have hresolved := (resolve_eq_ok_iff hmode .empty name _).mpr
      ⟨above, habove, Or.inr (Or.inl hlength), rfl⟩
    have hunchecked : (Lineage.ofAncestors name above).isUnchecked = false :=
      (Lineage.isUnchecked_eq_false_iff _).mpr (isChecked_ofAncestors.mpr hchecked)
    have hthrown : (Lineage.ofAncestors name above).canBeThrown = true :=
      List.contains_iff_mem.mpr ((Lineage.mem_ofAncestors ..).mpr hthrowable)
    have hcounts : thin.counts (.athrow stackTop) (.ofAncestors name above) = true := by
      simp [counts, hmode, hunchecked, hthrown]
    have hforgot : thin.handsOn flow.forgetCall.lastCall = false := rfl
    have hthrow := flow.forgetCall.run_recordThrow_typed hforgot hstack 1 {}
    change ∃ event ∈ ((flow.readAll thin _).run {}).value.events, _
    rw [h.run_readAll_lost, FlowLog.run_readAll_athrow hthrow, hresolved]
    refine ⟨⟨.ofAncestors name above, 1⟩, ?_, rfl, Lineage.name_ofAncestors ..⟩
    simp [FlowLog.readAll, FlowLog.addAll, Except.toOption, hcounts]
  · intro flow hempty event hevent
    rw [h.run_readAll_handed flow stackTop []] at hevent
    exact absurd (hempty ▸ hevent) List.not_mem_nil

/-- The throw that is no longer handed on makes a class known, and with it one beyond the limit. -/
theorem not_found_sublist_of_beyondLimit {stackTop : Option String}
    (hstack : stackTop.bind ClassName.ofSignature? = some parent)
    (hbeyond : thin.BeyondLimit name (parent :: rest)) (hname : name ≠ .throwable)
    (hchecked : IsChecked (name :: parent :: rest)) {target : CallTarget}
    (hdeclares : thin.Declares target .static [name]) :
    ∃ body, ¬ (thin.found body).Sublist (context.found body) := by
  refine exists_not_found_sublist (thin.towardsBrink (parent :: rest))
    [⟨0, .invoke call dispatch⟩, ⟨1, .athrow stackTop⟩, ⟨2, .invoke target .static⟩]
    ?_ hname 2 ?_ ?_
  · simp [MethodBody.stray?, MethodBody.probe, MethodBody.spans]
  · intro flow
    obtain ⟨-, known, hparent⟩ := hbeyond.brink_resolves
    have hmemo := thin.brink_reachable (parent :: rest)
    have hresolved := resolve_of_knows_parent hbeyond.hierarchy hbeyond.positive
      (hmemo.resolve parent) hbeyond.ascent (knows_resolve_self hbeyond.hierarchy hparent)
    have hforgot : thin.handsOn flow.forgetCall.lastCall = false := rfl
    have hthrow := flow.forgetCall.run_recordThrow_typed hforgot hstack 1
      (thin.brink (parent :: rest))
    change ∃ event ∈ ((flow.readAll thin _).run (thin.brink (parent :: rest))).value.events, _
    rw [h.run_readAll_lost, FlowLog.run_readAll_athrow hthrow, FlowLog.run_readAll_singleton]
    exact ⟨_, FlowLog.mem_events_of_checked _ hbeyond.hierarchy (hmemo.resolve parent) hresolved
      ((Lineage.isUnchecked_eq_false_iff _).mpr (isChecked_ofAncestors.mpr hchecked)) hdeclares 2,
      rfl, Lineage.name_ofAncestors ..⟩
  · intro flow hempty event hevent
    have hfull := hbeyond.of_thins h.toThins
    obtain ⟨⟨failure, hrefused⟩, -⟩ := hfull.brink_resolves
    rw [h.run_readAll_handed, FlowLog.run_readAll_singleton, h.warm_towardsBrink,
      FlowLog.events_of_refused _ hfull.hierarchy hrefused (h.declares hdeclares)] at hevent
    exact absurd (hempty ▸ hevent) List.not_mem_nil

end HandsOver

end Context

end ExceptionFlow
