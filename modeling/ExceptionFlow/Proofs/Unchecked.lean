import ExceptionFlow.Proofs.DeepClasses
import ExceptionFlow.Proofs.Reachability
import Mathlib.Tactic.ByContra
/-!
Runtime exceptions and errors stay out of logs and findings as long as they have no more
superclasses than the limit allows. Beyond the limit the first pass over a throws clause cannot tell
that a class is unchecked, and the second pass may resolve it all the same.
-/
namespace ExceptionFlow

/-- No runtime exception and no error is among the classes. -/
def IsChecked (classes : List ClassName) : Prop :=
  .runtimeException ∉ classes ∧ .error ∉ classes

theorem Lineage.isUnchecked_eq_false_iff (lineage : Lineage) :
    lineage.isUnchecked = false ↔ IsChecked lineage.ancestors := by
  simp [isUnchecked, descendsFrom, IsChecked]

theorem isChecked_ofAncestors {name : ClassName} {above : List ClassName} :
    IsChecked (Lineage.ofAncestors name above).ancestors ↔ IsChecked (name :: above) := by
  simp only [IsChecked, Lineage.mem_ofAncestors]

namespace Context

variable {context : Context}

/-- Logs, detectors and findings hold checked exceptions only, whatever they went through. -/
structure KeepsChecked (context : Context) : Prop where
  logged : ∀ flow memo, FlowLog.Reachable context flow memo →
    ∀ event ∈ flow.events, IsChecked event.exception.ancestors
  tracked : ∀ detector memo, Detector.Reachable context detector memo →
    ∀ event ∈ detector.flow.events, IsChecked event.exception.ancestors
  found : ∀ detector memo operation, Detector.Reachable context detector memo →
    ∀ batch ∈ ((detector.apply context operation).run memo).batches,
      ∀ finding ∈ batch.findings, ∀ above,
        Ascent context.source finding.exception above → IsChecked (finding.exception :: above)

/-- No unchecked exception has more superclasses than the limit allows. -/
def UncheckedWithinLimit (context : Context) : Prop :=
  ∀ name above, Ascent context.source name above → ¬ IsChecked (name :: above) →
    above.length ≤ context.config.maxDepth

theorem isChecked_of_counts (hmode : context.usesHierarchy = true) {kind : InstructionKind}
    {lineage : Lineage} (h : context.counts kind lineage = true) :
    IsChecked lineage.ancestors := by
  rw [← lineage.isUnchecked_eq_false_iff]
  cases kind <;> simp_all [counts]

/-- An event with so few superclasses that it resolves afresh went through the first pass with its
lineage, so it is checked. -/
theorem Raises.isChecked (hmode : context.usesHierarchy = true)
    (hlimit : context.config.maxDepth = 0 ∨ context.UncheckedWithinLimit)
    {call : Option (ClassName × String)} {instruction : Instruction} {events : List ThrowEvent}
    (h : context.Raises call instruction events) {event : ThrowEvent} (hevent : event ∈ events) :
    IsChecked event.exception.ancestors := by
  obtain ⟨above, habove, hancestors, hdepth⟩ := (h.admitted event hevent).ascent hmode
  rw [hancestors]
  by_contra hunchecked
  have hlength : above.length ≤ context.config.maxDepth := by
    rcases hlimit with hzero | hlimit
    · rcases hdepth with rfl | hpos
      · exact Nat.zero_le _
      · omega
    · exact hlimit _ above habove hunchecked
  have hfresh := (freshLineage?_eq_some_iff hmode event.exception.name _).mpr
    ⟨above, habove, hlength, rfl⟩
  exact hunchecked (isChecked_ofAncestors.mp
    (isChecked_of_counts hmode (h.fresh event hevent _ hfresh)))

theorem keepsChecked_of_limit (hmode : context.usesHierarchy = true)
    (hlimit : context.config.maxDepth = 0 ∨ context.UncheckedWithinLimit) :
    context.KeepsChecked := by
  have hmarks : context.Marks fun event =>
      context.Admits event.exception ∧ IsChecked event.exception.ancestors := by
    intro call instruction events hraises event hevent
    exact ⟨hraises.admitted event hevent, hraises.isChecked hmode hlimit hevent⟩
  constructor
  · intro flow memo hflow event hevent
    exact (hflow.forall_mem hmarks event hevent).2
  · intro detector memo hdetector event hevent
    exact ((hdetector.tracks hmarks).2.events event hevent).2
  · intro detector memo operation hdetector batch hbatch finding hfinding above habove
    exact hmarks.findings hmode hdetector operation hbatch hfinding habove

/-- An unchecked exception beyond the limit comes into a log once some method declares it right
before its superclass. -/
theorem BeyondLimit.exists_unchecked_event {name : ClassName} {above : List ClassName}
    (h : context.BeyondLimit name above) (hunchecked : ¬ IsChecked (name :: above)) :
    ∃ source, SameHierarchy context.source source ∧ ∃ flow memo,
      FlowLog.Reachable { context with source } flow memo ∧
      ∃ event ∈ flow.events, ¬ IsChecked event.exception.ancestors := by
  obtain ⟨parent, rest, rfl⟩ := h.exists_parent
  -- the root of the unchecked exceptions is a class that can be called
  obtain ⟨root, hroot, hmem⟩ : ∃ root : ClassName,
      (root = .runtimeException ∨ root = .error) ∧ root ∈ name :: parent :: rest := by
    by_contra hnone
    exact hunchecked ⟨fun hruntime => hnone ⟨_, Or.inl rfl, hruntime⟩,
      fun herror => hnone ⟨_, Or.inr rfl, herror⟩⟩
  have howner : context.HasOwner ⟨root, "call", "()V"⟩ := by
    refine ⟨?_, h.ascent.exists_class_of_mem hmem⟩
    rcases hroot with rfl | rfl <;> decide
  have hnodup : [name, parent].Nodup := by simp [h.ne_parent]
  obtain ⟨source, hsame, hbeyond, hdeclares⟩ := h.exists_declares howner hnodup
  have hmemo := Context.brink_reachable { context with source } (parent :: rest)
  obtain ⟨⟨failure, hrefused⟩, known, hparent⟩ := hbeyond.brink_resolves
  have hevent := FlowLog.mem_events_of_refused {} hbeyond hmemo hrefused hparent hdeclares 0
  exact ⟨source, hsame, _, _, .instruction (.fresh hmemo) _, _, hevent,
    mt isChecked_ofAncestors.mp hunchecked⟩

end Context

/-- A runtime exception with five superclasses where four are allowed. -/
def deepRuntimeContext : Context :=
  let bases := Classpath.javaLang.insert { name := ⟨"a.Base"⟩, parent := some .runtimeException }
  let classes := bases.insert { name := ⟨"a.Leaf"⟩, parent := some ⟨"a.Base"⟩ }
  .new { maxDepth := 4 } classes.lookup fun _ => .ok ()

/-- Along superclasses, only checked exceptions are recorded and found, whatever methods the classes
declare, exactly when unchecked classes have no more superclasses than the limit allows. With a
limit of zero no class that has a superclass resolves at all. -/
theorem keepsChecked_iff (context : Context) (hmode : context.config.strategy = .hierarchy) :
    (∀ source, SameHierarchy context.source source →
      Context.KeepsChecked { context with source }) ↔
        context.config.maxDepth = 0 ∨ context.UncheckedWithinLimit := by
  have hhierarchy : context.usesHierarchy = true := by simp [Context.usesHierarchy, hmode]
  constructor
  · intro hkeeps
    by_cases hzero : context.config.maxDepth = 0
    · exact Or.inl hzero
    · refine Or.inr ?_
      intro name above habove hunchecked
      by_contra hdeep
      obtain ⟨source, hsame, flow, memo, hflow, event, hevent, hbad⟩ :=
        Context.BeyondLimit.exists_unchecked_event
          ⟨hhierarchy, Nat.pos_of_ne_zero hzero, habove, Nat.lt_of_not_le hdeep⟩ hunchecked
      exact hbad ((hkeeps source hsame).logged flow memo hflow event hevent)
  · intro hlimit source hsame
    refine Context.keepsChecked_of_limit hhierarchy (hlimit.imp_right ?_)
    intro hwithin name above habove
    exact hwithin name above (hsame.symm.ascent habove)

theorem keepsChecked_iff_deepRuntime :
    deepRuntimeContext.config.strategy = .hierarchy ∧
      ¬ ∀ source, SameHierarchy deepRuntimeContext.source source →
        Context.KeepsChecked { deepRuntimeContext with source } := by
  refine ⟨rfl, ?_⟩
  intro hkeeps
  have habove : Ascent deepRuntimeContext.source ⟨"a.Leaf"⟩
      [⟨"a.Base"⟩, .runtimeException, .exception, .throwable, .object] :=
    .step rfl rfl (.step rfl rfl (.step rfl rfl (.step rfl rfl (.step rfl rfl (.root rfl rfl)))))
  have hunchecked : ¬ IsChecked
      [⟨"a.Leaf"⟩, ⟨"a.Base"⟩, .runtimeException, .exception, .throwable, .object] := by
    simp [IsChecked]
  rcases (keepsChecked_iff deepRuntimeContext rfl).mp hkeeps with hzero | hlimit
  · exact absurd hzero (by decide)
  · exact absurd (hlimit _ _ habove hunchecked) (by decide)

end ExceptionFlow
