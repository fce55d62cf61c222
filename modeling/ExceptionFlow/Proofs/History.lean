import ExceptionFlow.Proofs.DeepClasses
import ExceptionFlow.Proofs.StableRuns
import Mathlib.Tactic.ByContra
/-!
Does it matter what was analysed before? Not in a stable context. In any other one there are classes
that a method finds or not according to what the memo knows, and the memo knows whatever the methods
before it made it know.
-/
namespace ExceptionFlow

variable {context : Context}

/-- The memos that analysing methods one after another leads to. -/
inductive Context.Analysed (context : Context) : Memo → Prop where
  | fresh : Analysed context {}
  | method {memo : Memo} (hmemo : Analysed context memo) (body : MethodBody) :
      Analysed context ((({} : Detector).runMethod context body).run memo).memo

/-- What was analysed before makes no difference to a method or to a program. A detector that is
idle is empty, so the empty one stands for all of them; an analysis that fails for one order of the
classes fails for every order. -/
structure Context.HistoryFree (context : Context) : Prop where
  same : ∀ first second, context.Analysed first → context.Analysed second → ∀ body,
    ((({} : Detector).runMethod context body).run first).value.result =
        ((({} : Detector).runMethod context body).run second).value.result ∧
      ((({} : Detector).runMethod context body).run first).batches =
        ((({} : Detector).runMethod context body).run second).batches
  twice : ∀ memo, context.Analysed memo → ∀ body, ∀ once,
    (({} : Detector).runMethod context body).run memo = once →
      ((once.value.detector.runMethod context body).run once.memo).value.result =
          once.value.result ∧
        ((once.value.detector.runMethod context body).run once.memo).batches = once.batches
  permuted : ∀ first second, context.Analysed first → context.Analysed second →
    ∀ classes others : List ClassBody, classes.Perm others →
      ∀ tally, ((analyze context classes).run first).value = .ok tally →
        ((analyze context others).run second).value = .ok tally ∧
          ((analyze context classes).run first).batches.Perm
            ((analyze context others).run second).batches

namespace Detector

theorem run_addEntry (context : Context) (body : MethodBody) (flow : FlowLog) {entry : TableEntry}
    {name : ClassName} (hname : entry.catchType = some name) (memo : Memo) :
    ∃ next, (((scanning body flow).addEntry context entry).run memo).value =
        { result := .ok (), detector := scanning body next } ∧
      (((scanning body flow).addEntry context entry).run memo).memo =
        ((context.resolve name).run memo).memo := by
  obtain ⟨-, hresolved⟩ := context.run_resolveOrRemark name memo
  have hrecorded : ((flow.recordEntry context entry).run memo).memo =
      ((context.resolve name).run memo).memo := by
    simp [FlowLog.recordEntry, FlowLog.caughtBy, hname, hresolved]
  obtain ⟨regions, -, hchecked⟩ := FlowLog.checkLastRegion_yields
    ((flow.recordEntry context entry).run memo).value context body
  obtain ⟨hvalue, hkept, -⟩ := hchecked ((flow.recordEntry context entry).run memo).memo
  unfold addEntry
  rw [inProgress_scanning]
  refine ⟨{ ((flow.recordEntry context entry).run memo).value with regions }, ?_, ?_⟩
  · simp only [scanning, Action.run_bind, Action.run_pure, hvalue]
  · simp only [scanning, Action.run_bind, Action.run_pure, hkept]
    exact hrecorded

end Detector

theorem MethodDecl.hasCode_of_public {method : MethodDecl}
    (h : method.flags = .ofFlag .publicAccess) : method.hasCode = true := by
  rw [hasCode, h]
  decide

/-- A method that does nothing but name a class in its exception table. -/
def MethodBody.ofRow (name : ClassName) : MethodBody :=
  { className := name
    method := { name := "m", descriptor := "()V" }
    handlers := [⟨0, 0, 0, some name⟩] }

theorem Detector.runMethod_ofRow (context : Context) (name : ClassName) (memo : Memo) :
    ((({} : Detector).runMethod context (.ofRow name)).run memo).memo =
      ((context.resolve name).run memo).memo := by
  have hcode : (MethodBody.ofRow name).method.hasCode = true := MethodDecl.hasCode_of_public rfl
  have hhandlers : (MethodBody.ofRow name).handlers = [⟨0, 0, 0, some name⟩] := rfl
  have hbody : (MethodBody.ofRow name).code = [] := rfl
  have hentry : (⟨0, 0, 0, some name⟩ : TableEntry).catchType = some name := rfl
  obtain ⟨hstarted, hmemo, -⟩ := start_yields (.ofRow name) memo
  obtain ⟨flow, hvalue, hresolved⟩ := run_addEntry context (.ofRow name)
    (startLog (.ofRow name)) hentry memo
  obtain ⟨-, hfinished, -⟩ := finish_yields context (.ofRow name) flow
    ((context.resolve name).run memo).memo
  unfold runMethod scan
  rw [if_pos hcode]
  simp only [Action.run_bind, hstarted, hmemo, hhandlers, hbody, forEach, hvalue, hresolved,
    Action.run_pure, hfinished]

theorem Context.analysed_iff (context : Context) (memo : Memo) :
    context.Analysed memo ↔ memo.Reachable context := by
  constructor
  · intro h
    induction h with
    | fresh => exact .empty
    | method _ body ih =>
        exact (Detector.apply_performs context.resolves_reachable .idle (.runMethod body) _ ih).1
  · intro h
    induction h with
    | empty => exact .fresh
    | resolve _ name ih =>
        rw [← Detector.runMethod_ofRow context name]
        exact .method ih (.ofRow name)

theorem Context.Stable.historyFree (hstable : context.Stable) : context.HistoryFree where
  same first second hfirst hsecond body := by
    rw [analysed_iff] at hfirst hsecond
    have hone := (Detector.runMethod_report hstable body first hfirst).2.2
    have hother := (Detector.runMethod_report hstable body second hsecond).2.2
    rw [Outcome.map_flushes] at hone hother
    exact Prod.mk.inj (hone.trans hother.symm)
  twice memo hmemo body once honce := by
    rw [analysed_iff] at hmemo
    obtain ⟨hnext, hempty, hreport⟩ := Detector.runMethod_report hstable body memo hmemo
    rw [honce] at hnext hempty hreport
    have hagain := (Detector.runMethod_report hstable body once.memo hnext).2.2
    rw [Outcome.map_flushes] at hagain hreport
    rw [hempty]
    exact Prod.mk.inj (hagain.trans hreport.symm)
  permuted first second hfirst hsecond classes others hperm tally htally := by
    rw [analysed_iff] at hfirst hsecond
    have hone := (analyze_accounts hstable classes first hfirst).2
    have hother := (analyze_accounts hstable others second hsecond).2
    rw [htally, Outcome.map_flushes] at hone
    rw [Outcome.map_flushes] at hother
    exact hone.perm hother (hperm.flatMap_right _)

def MethodBody.ofInstruction (instruction : Instruction) : MethodBody :=
  { className := .object
    method := { name := "m", descriptor := "()V" }
    code := [instruction] }

namespace Detector

theorem runMethod_ofInstruction (context : Context) (memo : Memo) (instruction : Instruction) :
    ((({} : Detector).runMethod context (.ofInstruction instruction)).run memo).batches =
      [((({} : FlowLog).recordInstruction context instruction).run memo).value.batch
        (.ofInstruction instruction)] := by
  have hcode : (MethodBody.ofInstruction instruction).method.hasCode = true :=
    MethodDecl.hasCode_of_public rfl
  have hbody : (MethodBody.ofInstruction instruction).code = [instruction] := rfl
  have hspans : (MethodBody.ofInstruction instruction).spans instruction.offset = true := by
    simp [MethodBody.spans, hbody]
  have hstray : (MethodBody.ofInstruction instruction).stray? = none := by
    simp [MethodBody.stray?, hbody, hspans]
  have hreading : context.reading (.ofInstruction instruction) =
      ({} : FlowLog).readAll context [instruction] := by
    unfold Context.reading
    rw [MethodBody.inside_eq_code hstray]
    rfl
  rw [batches_runMethod hcode hstray, hreading]
  rfl

theorem finds_ofInstruction {memo : Memo} (hmemo : memo.Reachable context)
    (instruction : Instruction) {name : ClassName} (hname : name ≠ .throwable) :
    (∃ batch ∈ ((({} : Detector).runMethod context (.ofInstruction instruction)).run memo).batches,
        ∃ finding ∈ batch.findings, finding.exception = name) ↔
      ∃ event ∈ ((({} : FlowLog).recordInstruction context instruction).run memo).value.events,
        event.exception.name = name := by
  obtain ⟨_, _, events, _, hflow⟩ := FlowLog.recordInstruction_quietly {} instruction memo hmemo
  have hescapes : ∀ event : ThrowEvent, event.exception.name = name →
      (({} : ThrowsClause).allows event) = false := by
    rintro event rfl
    have hroot : ({} : ThrowsClause).declaresRoot = false := rfl
    have hempty : event.exception.name ∉ ({} : ThrowsClause) := List.not_mem_nil
    simp [ThrowsClause.allows, Lineage.isUnspecific, hname, hroot, hempty]
  rw [runMethod_ofInstruction, hflow]
  simp only [List.mem_singleton, exists_eq_left, FlowLog.batch, Batch.ofBody, List.mem_map,
    FlowLog.escapes, List.mem_filter]
  constructor
  · rintro ⟨_, ⟨event, ⟨hevent, _⟩, rfl⟩, hexception⟩
    exact ⟨event, hevent, hexception⟩
  · rintro ⟨event, hevent, hexception⟩
    refine ⟨_, ⟨event, ⟨hevent, ?_⟩, rfl⟩, hexception⟩
    simp [FlowLog.afterInstruction, FlowLog.addAll, Coverage.stopped, hescapes event hexception]

end Detector

namespace Context

/-- Without history, an instruction raises a specific exception with every memo or with none. -/
theorem HistoryFree.raises_iff (h : context.HistoryFree) {first second : Memo}
    (hfirst : first.Reachable context) (hsecond : second.Reachable context)
    (instruction : Instruction) {name : ClassName} (hname : name ≠ .throwable) :
    (∃ event ∈ ((({} : FlowLog).recordInstruction context instruction).run first).value.events,
        event.exception.name = name) ↔
      ∃ event ∈ ((({} : FlowLog).recordInstruction context instruction).run second).value.events,
        event.exception.name = name := by
  have hsame := (h.same first second ((analysed_iff _ _).mpr hfirst)
    ((analysed_iff _ _).mpr hsecond) (.ofInstruction instruction)).2
  rw [← Detector.finds_ofInstruction hfirst instruction hname, hsame,
    Detector.finds_ofInstruction hsecond instruction hname]

namespace BeyondLimit

variable {name parent : ClassName} {rest above : List ClassName} {target : CallTarget}
  {dispatch : Dispatch}

/-- A checked class beyond the limit is raised only if something above it is known. -/
theorem not_historyFree_of_checked (h : context.BeyondLimit name (parent :: rest))
    (hname : name ≠ .throwable)
    (hchecked : (Lineage.ofAncestors name (parent :: rest)).isUnchecked = false)
    (hdeclares : context.Declares target dispatch [name]) : ¬ context.HistoryFree := by
  intro hfree
  have hfirst := context.brink_reachable (parent :: rest)
  obtain ⟨⟨failure, hrefused⟩, _⟩ := h.brink_resolves
  obtain ⟨second, hsecond, hresolved⟩ := h.exists_memo_resolving
  have hevent := FlowLog.mem_events_of_checked {} h.hierarchy hsecond hresolved hchecked hdeclares 0
  have hraised := (hfree.raises_iff hfirst hsecond ⟨0, .invoke target dispatch⟩ hname).mpr
    ⟨_, hevent, Lineage.name_ofAncestors ..⟩
  rw [FlowLog.events_of_refused {} h.hierarchy hrefused hdeclares] at hraised
  obtain ⟨event, hevent, _⟩ := hraised
  cases hevent

/-- An unchecked class beyond the limit is raised only if it is not known to be unchecked. -/
theorem not_historyFree_of_unchecked (h : context.BeyondLimit name (parent :: rest))
    (hname : name ≠ .throwable)
    (hunchecked : (Lineage.ofAncestors name (parent :: rest)).isUnchecked = true)
    (hdeclares : context.Declares target dispatch [name, parent]) : ¬ context.HistoryFree := by
  intro hfree
  have hfirst := context.brink_reachable (parent :: rest)
  obtain ⟨⟨failure, hrefused⟩, known, hparent⟩ := h.brink_resolves
  obtain ⟨second, hsecond, hresolved⟩ := h.exists_memo_resolving
  have hevent := FlowLog.mem_events_of_refused {} h hfirst hrefused hparent hdeclares 0
  obtain ⟨event, hraised, heq⟩ :=
    (hfree.raises_iff hfirst hsecond ⟨0, .invoke target dispatch⟩ hname).mp
      ⟨_, hevent, Lineage.name_ofAncestors ..⟩
  rcases FlowLog.not_mem_events_of_unchecked {} h.hierarchy hsecond hresolved hunchecked
    h.ne_parent hdeclares 0 event hraised with hempty | hne
  · cases hempty
  · exact hne heq

/-- With a class beyond the limit, the history makes a difference once some method declares that
class: alone if it is checked, right before its superclass if it is not. -/
theorem exists_not_historyFree (h : context.BeyondLimit name above) (hname : name ≠ .throwable)
    (howner : context.HasOwner target) :
    ∃ source, SameHierarchy context.source source ∧
      ¬ Context.HistoryFree { context with source } := by
  obtain ⟨parent, rest, rfl⟩ := h.exists_parent
  cases hunchecked : (Lineage.ofAncestors name (parent :: rest)).isUnchecked with
  | false =>
      have hnodup : [name].Nodup := by simp
      obtain ⟨source, hsame, hbeyond, hdeclares⟩ := h.exists_declares howner hnodup
      exact ⟨source, hsame, hbeyond.not_historyFree_of_checked hname hunchecked hdeclares⟩
  | true =>
      have hnodup : [name, parent].Nodup := by simp [h.ne_parent]
      obtain ⟨source, hsame, hbeyond, hdeclares⟩ := h.exists_declares howner hnodup
      exact ⟨source, hsame, hbeyond.not_historyFree_of_unchecked hname hunchecked hdeclares⟩

end BeyondLimit

end Context

theorem SameHierarchy.stable {source : ClassSource} (h : SameHierarchy context.source source)
    (hstable : context.Stable) : Context.Stable { context with source } := by
  rcases hstable with htextual | hzero | howner | hlimit
  · exact Or.inl htextual
  · exact Or.inr (Or.inl hzero)
  · refine Or.inr (Or.inr (Or.inl ?_))
    rintro ⟨target, harray, cls, hcls⟩
    obtain ⟨found, hfound, _⟩ := h.symm.exists_class hcls
    exact howner ⟨target, harray, found, hfound⟩
  · refine Or.inr (Or.inr (Or.inr ?_))
    intro name above habove
    exact hlimit name above (h.symm.ascent habove)

/-- For a hierarchy of classes, what was analysed before makes no difference, whatever methods the
classes declare, exactly in the stable contexts. -/
theorem historyFree_iff_stable (context : Context) :
    (∀ source, SameHierarchy context.source source →
      Context.HistoryFree { context with source }) ↔ context.Stable := by
  constructor
  · intro hfree
    by_contra hunstable
    unfold Context.Stable at hunstable
    rw [not_or, not_or, not_or, not_not] at hunstable
    obtain ⟨htextual, hzero, ⟨target, howner⟩, hlimit⟩ := hunstable
    have hmode : context.usesHierarchy = true := by
      cases hstrategy : context.config.strategy with
      | textual => exact absurd hstrategy htextual
      | hierarchy => simp [Context.usesHierarchy, hstrategy]
    refine hlimit ?_
    intro name above habove hname
    by_contra hdeep
    have hbeyond : context.BeyondLimit name above :=
      ⟨hmode, Nat.pos_of_ne_zero hzero, habove, Nat.lt_of_not_le hdeep⟩
    obtain ⟨source, hsame, hhistory⟩ := hbeyond.exists_not_historyFree hname howner
    exact hhistory (hfree source hsame)
  · intro hstable source hsame
    exact (hsame.stable hstable).historyFree

end ExceptionFlow
