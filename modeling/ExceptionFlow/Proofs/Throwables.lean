import ExceptionFlow.Proofs.DeepClasses
import ExceptionFlow.Proofs.Findings
import ExceptionFlow.Proofs.Unchecked
import Mathlib.Tactic.ByContra
/-!
Which classes come into logs and findings as exceptions. A throw is recorded only if its class
descends from the root of all throwables, but a call records what the called method declares. So
only throwables are recorded exactly when methods declare nothing else.
-/
namespace ExceptionFlow

namespace Context

variable {context : Context} {memo : Memo} {name : ClassName} {above : List ClassName}

/-- Logs, detectors and findings hold throwables only, whatever they went through. -/
structure KeepsThrowable (context : Context) : Prop where
  logged : ∀ flow memo, FlowLog.Reachable context flow memo →
    ∀ event ∈ flow.events, .throwable ∈ event.exception.ancestors
  tracked : ∀ detector memo, Detector.Reachable context detector memo →
    ∀ event ∈ detector.flow.events, .throwable ∈ event.exception.ancestors
  found : ∀ detector memo operation, Detector.Reachable context detector memo →
    ∀ batch ∈ ((detector.apply context operation).run memo).batches,
      ∀ finding ∈ batch.findings, ∀ above,
        Ascent context.source finding.exception above → .throwable ∈ finding.exception :: above

/-- Every class that a method declares and that resolves at some time descends from the root of all
throwables. The methods meant are those that calls can mean. -/
def DeclaresThrowables (context : Context) : Prop :=
  ∀ target dispatch callee, context.callee? target dispatch = some callee →
    ∀ name ∈ callee.method.throwsClause, ∀ above, Ascent context.source name above →
      above = [] ∨ 0 < context.config.maxDepth → .throwable ∈ name :: above

/-- Runtime exceptions and errors are throwables. -/
def RootsThrowable (context : Context) : Prop :=
  ∀ root, root = .runtimeException ∨ root = .error →
    ∀ above, Ascent context.source root above → .throwable ∈ above

theorem RootsThrowable.isChecked (hroots : context.RootsThrowable)
    (habove : Ascent context.source name above) (hthrowable : .throwable ∉ name :: above) :
    IsChecked (name :: above) := by
  have hroot : ∀ root, root = .runtimeException ∨ root = .error → root ∉ name :: above := by
    intro root hroot hmem
    apply hthrowable
    rcases List.mem_cons.mp hmem with rfl | hmem
    · exact List.mem_cons_of_mem _ (hroots _ hroot above habove)
    · obtain ⟨before, after, rfl⟩ := List.append_of_mem hmem
      have hafter := hroots root hroot after habove.of_append
      simp [hafter]
  exact ⟨hroot _ (Or.inl rfl), hroot _ (Or.inr rfl)⟩

theorem Admits.exists_memo_knowing {lineage : Lineage} (hmode : context.usesHierarchy = true)
    (h : context.Admits lineage) :
    ∃ memo : Memo, memo.Reachable context ∧ memo.Knows lineage.name := by
  obtain ⟨above, habove, -, hdepth⟩ := h.ascent hmode
  rcases hdepth with rfl | hpositive
  · have hok := (resolve_eq_ok_iff hmode .empty lineage.name _).mpr
      ⟨[], habove, Or.inr (Lineage.endsWithin_nil _ _), rfl⟩
    refine ⟨_, .resolve .empty lineage.name, ?_⟩
    exact knows_resolve_self hmode hok
  · exact ⟨_, warm_reachable .empty _,
      (knows_warm_iff hmode hpositive habove lineage.name).mpr List.mem_cons_self⟩

theorem resolve_of_knows (hmode : context.usesHierarchy = true) (hmemo : memo.Reachable context)
    (habove : Ascent context.source name above) (hknows : memo.Knows name) :
    ((context.resolve name).run memo).value = .ok (.ofAncestors name above) :=
  (resolve_eq_ok_iff hmode hmemo name _).mpr ⟨above, habove, Or.inl hknows, rfl⟩

theorem checkedNames_of_knows (hmode : context.usesHierarchy = true)
    (hmemo : memo.Reachable context) (habove : Ascent context.source name above)
    (hknows : memo.Knows name) (hchecked : IsChecked (name :: above)) {names : List ClassName}
    (hname : name ∈ names) :
    name ∈ ((context.checkedNames names).run memo).value := by
  induction names generalizing memo with
  | nil => cases hname
  | cons other names ih =>
      have hnext : ((context.resolve other).run memo).memo.Knows name :=
        knows_resolve_of_knows hmode hknows other
      cases hother : ((context.resolve other).run memo).value with
      | error failure =>
          rw [(checkedNames_refused hother names).1, List.mem_cons]
          exact (List.mem_cons.mp hname).imp_right fun hname => ih hmemo hknows hname
      | ok lineage =>
          rw [(checkedNames_resolved hother names).1, List.mem_append]
          rcases List.mem_cons.mp hname with rfl | hname
          · rw [resolve_of_knows hmode hmemo habove hknows] at hother
            obtain rfl := Except.ok.inj hother
            rw [(Lineage.isUnchecked_eq_false_iff _).mpr (isChecked_ofAncestors.mpr hchecked)]
            exact Or.inl (List.mem_singleton_self _)
          · exact Or.inr (ih (hmemo.resolve other) hnext hname)

theorem knows_checkedNames (hmode : context.usesHierarchy = true) (hknows : memo.Knows name)
    (names : List ClassName) : ((context.checkedNames names).run memo).memo.Knows name := by
  induction names generalizing memo with
  | nil => exact hknows
  | cons other names ih =>
      cases hother : ((context.resolve other).run memo).value with
      | error failure =>
          rw [(checkedNames_refused hother names).2]
          exact ih hknows
      | ok lineage =>
          rw [(checkedNames_resolved hother names).2]
          exact ih (knows_resolve_of_knows hmode hknows other)

end Context

namespace FlowLog

variable {context : Context} {memo : Memo} {name : ClassName} {above : List ClassName}

theorem mem_events_addEvents_of_knows (flow : FlowLog) (hmode : context.usesHierarchy = true)
    (hmemo : memo.Reachable context) (habove : Ascent context.source name above)
    (hknows : memo.Knows name) (offset : Nat) {names : List ClassName} (hname : name ∈ names) :
    ⟨.ofAncestors name above, offset⟩ ∈
      ((flow.addEvents context offset names).run memo).value.events := by
  induction names generalizing flow memo with
  | nil => cases hname
  | cons other names ih =>
      rcases List.mem_cons.mp hname with rfl | hname
      · exact flow.mem_events_addEvents
          (Context.resolve_of_knows hmode hmemo habove hknows) offset names
      · cases hother : ((context.resolve other).run memo).value with
        | error failure =>
            rw [flow.addEvents_refused hother]
            exact ih flow hmemo hknows hname
        | ok lineage =>
            rw [flow.addEvents_resolved hother]
            exact ih _ (hmemo.resolve other)
              (Context.knows_resolve_of_knows hmode hknows other) hname

/-- A call records every checked class that the called method declares and that is known. -/
theorem mem_events_of_declared (flow : FlowLog) (hmode : context.usesHierarchy = true)
    (hmemo : memo.Reachable context) (habove : Ascent context.source name above)
    (hknows : memo.Knows name) (hchecked : IsChecked (name :: above)) {target : CallTarget}
    {dispatch : Dispatch} {names : List ClassName}
    (hdeclares : context.Declares target dispatch names) (hname : name ∈ names) (offset : Nat) :
    ⟨.ofAncestors name above, offset⟩ ∈ ((flow.recordInstruction context
      ⟨offset, .invoke target dispatch⟩).run memo).value.events := by
  rw [flow.recordInstruction_call hmode hdeclares]
  exact mem_events_addEvents_of_knows _ hmode
    (Context.checkedNames_plainly context.resolves_reachable names memo hmemo).1 habove
    (Context.knows_checkedNames hmode hknows names) offset
    (Context.checkedNames_of_knows hmode hmemo habove hknows hchecked hname)

end FlowLog

namespace Context

variable {context : Context}

theorem Raises.throwable (hmode : context.usesHierarchy = true)
    (hdeclares : context.DeclaresThrowables) {call : Option (ClassName × String)}
    {instruction : Instruction} {events : List ThrowEvent}
    (h : context.Raises call instruction events) {event : ThrowEvent} (hevent : event ∈ events) :
    .throwable ∈ event.exception.ancestors := by
  obtain ⟨above, habove, hancestors, hdepth⟩ := (h.admitted event hevent).ascent hmode
  rw [hancestors]
  have horigin := h.origin hmode hevent hancestors
  generalize instruction.kind = kind at horigin
  cases horigin with
  | thrown _ hthrowable _ _ => exact hthrowable
  | declared harray hcallee hdeclared =>
      exact hdeclares _ _ _ (callee?_eq_some_iff.mpr ⟨harray, hcallee⟩) _ hdeclared above habove
        hdepth

theorem DeclaresThrowables.keepsThrowable (hmode : context.usesHierarchy = true)
    (h : context.DeclaresThrowables) : context.KeepsThrowable := by
  have hmarks : context.Marks fun event =>
      context.Admits event.exception ∧ .throwable ∈ event.exception.ancestors := by
    intro call instruction events hraises event hevent
    exact ⟨hraises.admitted event hevent, hraises.throwable hmode h hevent⟩
  constructor
  · intro flow memo hflow event hevent
    exact (hflow.forall_mem hmarks event hevent).2
  · intro detector memo hdetector event hevent
    exact ((hdetector.tracks hmarks).2.events event hevent).2
  · intro detector memo operation hdetector batch hbatch finding hfinding above habove
    exact hmarks.findings (P := fun classes => .throwable ∈ classes) hmode hdetector operation
      hbatch hfinding habove

/-- A class outside the throwables is recorded at a call that declares it, once it is known. -/
theorem KeepsThrowable.declaresThrowables (hmode : context.usesHierarchy = true)
    (hroots : context.RootsThrowable) (h : context.KeepsThrowable) :
    context.DeclaresThrowables := by
  intro target dispatch callee hcallee name hname above habove hdepth
  by_contra hthrowable
  obtain ⟨memo, hmemo, hknows⟩ :=
    (Admits.hierarchy hmode habove hdepth).exists_memo_knowing hmode
  rw [Lineage.name_ofAncestors] at hknows
  have hevent := FlowLog.mem_events_of_declared {} hmode hmemo habove hknows
    (hroots.isChecked habove hthrowable) ⟨callee, hcallee, rfl⟩ hname 0
  exact hthrowable ((Lineage.mem_ofAncestors ..).mp
    (h.logged _ _ (.instruction (.fresh hmemo) _) _ hevent))

end Context

/-- A method whose throws clause names a type variable, and the bound of the variable is an
interface. -/
def runnableContext : Context :=
  let call : MethodDecl :=
    { name := "call"
      descriptor := "()V"
      flags := .ofFlag .staticMember
      signature := some "<X::Ljava/lang/Runnable;>()V^TX;" }
  let interfaces :=
    Classpath.javaLang.insert { name := ⟨"java.lang.Runnable"⟩, parent := some .object }
  let classes :=
    interfaces.insert { name := ⟨"a.Callee"⟩, parent := some .object, methods := [call] }
  .new {} classes.lookup fun _ => .ok ()

/-- Along superclasses, only throwables are recorded and found exactly when methods declare no
other classes that resolve. Nothing but the throws clauses keeps other classes out of what calls
record. -/
theorem keepsThrowable_iff (context : Context) (hmode : context.config.strategy = .hierarchy)
    (hroots : context.RootsThrowable) : context.KeepsThrowable ↔ context.DeclaresThrowables := by
  have hhierarchy : context.usesHierarchy = true := by simp [Context.usesHierarchy, hmode]
  constructor
  · exact Context.KeepsThrowable.declaresThrowables hhierarchy hroots
  · exact Context.DeclaresThrowables.keepsThrowable hhierarchy

theorem keepsThrowable_iff_runnable :
    runnableContext.config.strategy = .hierarchy ∧ runnableContext.RootsThrowable ∧
      ¬ runnableContext.KeepsThrowable := by
  have hruntime : Ascent runnableContext.source .runtimeException
      [.exception, .throwable, .object] :=
    .step rfl rfl (.step rfl rfl (.step rfl rfl (.root rfl rfl)))
  have herror : Ascent runnableContext.source .error [.throwable, .object] :=
    .step rfl rfl (.step rfl rfl (.root rfl rfl))
  have hroots : runnableContext.RootsThrowable := by
    rintro root (rfl | rfl) above habove
    · simp [habove.unique hruntime]
    · simp [habove.unique herror]
  refine ⟨rfl, hroots, ?_⟩
  intro hkeeps
  have hdeclares := (keepsThrowable_iff runnableContext rfl hroots).mp hkeeps
  have habove : Ascent runnableContext.source ⟨"java.lang.Runnable"⟩ [.object] :=
    .step rfl rfl (.root rfl rfl)
  have hthrowable := hdeclares ⟨⟨"a.Callee"⟩, "call", "()V"⟩ .static _ rfl ⟨"java.lang.Runnable"⟩
    (by decide +kernel) _ habove (Or.inr (by decide))
  exact absurd hthrowable (by decide)

end ExceptionFlow
