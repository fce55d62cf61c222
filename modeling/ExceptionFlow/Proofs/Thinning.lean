import ExceptionFlow.Proofs.CallSearch
import ExceptionFlow.Proofs.StableRuns
/-!
Sources that lack classes. As far as a thinner source answers at all, its answers are those of the
full one: the same superclasses, the same declarations behind calls and the same exceptions that
escape from code, as long as no throw depends on the call before it.
-/
namespace ExceptionFlow

/-- Every class of the first source is in the second one, with the same declaration. -/
def ClassSource.Within (thin source : ClassSource) : Prop :=
  ∀ name cls, thin name = .ok cls → source name = .ok cls

/-- Classes are found under their own names. -/
def ClassSource.Named (source : ClassSource) : Prop :=
  ∀ name cls, source name = .ok cls → cls.name = name

theorem Ascent.of_within {thin source : ClassSource} (h : thin.Within source) {name : ClassName}
    {above : List ClassName} (habove : Ascent thin name above) : Ascent source name above := by
  induction habove with
  | root hcls hparent => exact .root (h _ _ hcls) hparent
  | step hcls hparent _ ih => exact .step (h _ _ hcls) hparent ih

namespace Callee

variable {thin source : ClassSource} {declared? : ClassDecl → Option Callee}

theorem climb_of_within (h : thin.Within source) {budget : Nat} {name : ClassName} {result : Climb}
    (hclimb : climb thin declared? budget name = .ok result) :
    climb source declared? budget name = .ok result := by
  induction budget generalizing name result with
  | zero => cases hclimb
  | succ budget ih =>
      rw [climb_eq_ok_iff] at hclimb ⊢
      cases hclimb with
      | found hcls hdeclared => exact .found (h _ _ hcls) hdeclared
      | last hcls hdeclared hparent => exact .last (h _ _ hcls) hdeclared hparent
      | passed hcls hdeclared hparent hrest =>
          exact .passed (h _ _ hcls) hdeclared hparent (ih hrest)

theorem exists_class_of_climb {budget : Nat} {name : ClassName} {callee : Callee}
    (hclimb : climb source declared? budget name = .ok (.found callee)) :
    ∃ other cls, source other = .ok cls ∧ declared? cls = some callee := by
  induction budget generalizing name with
  | zero => cases hclimb
  | succ budget ih =>
      rw [climb_eq_ok_iff] at hclimb
      generalize hresult : Climb.found callee = result at hclimb
      cases hclimb with
      | @found cls _ hcls hdeclared =>
          cases hresult
          exact ⟨name, cls, hcls, hdeclared⟩
      | last => cases hresult
      | @passed _ _ rest _ _ _ hrest =>
          cases rest with
          | found found =>
              cases hresult
              exact ih hrest
          | exhausted interfaces => cases hresult

theorem spread_of_within (h : thin.Within source) {budget : Nat} {visited queue : List ClassName}
    {result : Option Callee} (hspread : spread thin declared? budget visited queue = .ok result) :
    spread source declared? budget visited queue = .ok result := by
  induction budget generalizing visited queue with
  | zero =>
      rw [spread_eq_ok_iff] at hspread ⊢
      cases hspread with
      | done hqueue => exact .done hqueue
  | succ budget ih =>
      rw [spread_eq_ok_iff] at hspread ⊢
      cases hspread with
      | done hqueue => exact .done hqueue
      | found hqueue hcls hdeclared => exact .found hqueue (h _ _ hcls) hdeclared
      | passed hqueue hcls hdeclared hrest =>
          exact .passed hqueue (h _ _ hcls) hdeclared (ih hrest)

theorem exists_class_of_spread {budget : Nat} {visited queue : List ClassName} {callee : Callee}
    (hspread : spread source declared? budget visited queue = .ok (some callee)) :
    ∃ other cls, source other = .ok cls ∧ declared? cls = some callee := by
  induction budget generalizing visited queue with
  | zero =>
      rw [spread_eq_ok_iff] at hspread
      cases hspread
  | succ budget ih =>
      rw [spread_eq_ok_iff] at hspread
      cases hspread with
      | found hqueue hcls hdeclared => exact ⟨_, _, hcls, hdeclared⟩
      | passed hqueue hcls hdeclared hrest => exact ih hrest

theorem resolve_of_within (h : thin.Within source) {target : CallTarget} {dispatch : Dispatch}
    {result : Option Callee} (hresolve : resolve thin target dispatch = .ok result) :
    resolve source target dispatch = .ok result := by
  rw [resolve_eq_ok_iff] at hresolve ⊢
  cases hresolve with
  | climbed hdispatch hclimb => exact .climbed hdispatch (climb_of_within h hclimb)
  | undeclared hdispatch hclimb => exact .undeclared hdispatch (climb_of_within h hclimb)
  | inherited hclimb hspread =>
      exact .inherited (climb_of_within h hclimb) (spread_of_within h hspread)
  | asked hspread => exact .asked (spread_of_within h hspread)
  | root hspread hroot => exact .root (spread_of_within h hspread) (h _ _ hroot)

theorem owner_of_declaredIn? {target : CallTarget} {dispatch : Dispatch} {cls : ClassDecl}
    {callee : Callee} (h : declaredIn? target dispatch cls = some callee) :
    callee.owner = cls.name := by
  unfold declaredIn? at h
  cases hmethod : cls.method? target.name target.descriptor with
  | none => simp [hmethod] at h
  | some method =>
      simp only [hmethod, Option.ite_none_right_eq_some] at h
      rw [← Option.some.inj h.2]

/-- The class that declares the method of a call is there. -/
theorem exists_owner_of_resolve (hnamed : source.Named) {target : CallTarget} {dispatch : Dispatch}
    {callee : Callee} (hresolve : resolve source target dispatch = .ok (some callee)) :
    ∃ cls, source callee.owner = .ok cls := by
  have hdeclared : ∃ other cls, source other = .ok cls ∧
      declaredIn? target dispatch cls = some callee := by
    rw [resolve_eq_ok_iff] at hresolve
    generalize hresult : some callee = result at hresolve
    cases hresolve with
    | climbed _ hclimb =>
        cases hresult
        exact exists_class_of_climb hclimb
    | undeclared => cases hresult
    | inherited _ hspread =>
        subst hresult
        exact exists_class_of_spread hspread
    | asked hspread =>
        cases hresult
        exact exists_class_of_spread hspread
    | root _ hroot => exact ⟨_, _, hroot, rfl⟩
  obtain ⟨name, cls, hcls, hcallee⟩ := hdeclared
  refine ⟨cls, ?_⟩
  rw [owner_of_declaredIn? hcallee, hnamed name cls hcls, hcls]

end Callee

namespace Context

/-- The same configuration over a source that may lack classes. -/
structure Thins (thin context : Context) : Prop where
  source : thin.source.Within context.source
  config : thin.config = context.config

namespace Thins

variable {thin context : Context} (h : thin.Thins context)
include h

theorem usesHierarchy : thin.usesHierarchy = context.usesHierarchy := by
  rw [Context.usesHierarchy, Context.usesHierarchy, h.config]

theorem callee? {target : CallTarget} {dispatch : Dispatch} {callee : Callee}
    (hcallee : thin.callee? target dispatch = some callee) :
    context.callee? target dispatch = some callee := by
  obtain ⟨harray, hresolve⟩ := callee?_eq_some_iff.mp hcallee
  exact callee?_eq_some_iff.mpr ⟨harray, Callee.resolve_of_within h.source hresolve⟩

theorem freshLineage? {name : ClassName} {lineage : Lineage}
    (hfresh : thin.freshLineage? name = some lineage) :
    context.freshLineage? name = some lineage := by
  have hsame := h.usesHierarchy
  cases hmode : context.usesHierarchy with
  | false =>
      rw [freshLineage?_textual (hsame.trans hmode)] at hfresh
      rw [freshLineage?_textual hmode, hfresh]
  | true =>
      obtain ⟨above, habove, hlength, rfl⟩ :=
        (freshLineage?_eq_some_iff (hsame.trans hmode) name lineage).mp hfresh
      rw [h.config] at hlength
      exact (freshLineage?_eq_some_iff hmode name _).mpr
        ⟨above, habove.of_within h.source, hlength, rfl⟩

theorem counts (kind : InstructionKind) (lineage : Lineage) :
    thin.counts kind lineage = context.counts kind lineage := by
  cases kind <;> simp only [Context.counts, h.usesHierarchy]

theorem escapes {body : MethodBody} {instruction : Instruction} {name : ClassName}
    (hescapes : thin.escapes body instruction name = true) :
    context.escapes body instruction name = true := by
  obtain ⟨lineage, hfresh, htest⟩ := surely_eq_true_iff.mp hescapes
  rw [h.counts] at htest
  exact surely_eq_true_iff.mpr ⟨lineage, h.freshLineage? hfresh, htest⟩

theorem escapesAt_sublist (body : MethodBody) (before : List Instruction)
    (instruction : Instruction)
    (hthrows : thin.usesHierarchy = true → ∀ stackTop, instruction.kind = .athrow stackTop →
      ∀ name, thin.escapes body instruction name = false) :
    (thin.escapesAt body before instruction).Sublist
      (context.escapesAt body before instruction) := by
  have hfilter : ∀ names : List ClassName,
      (names.filter (thin.escapes body instruction)).Sublist
        (names.filter (context.escapes body instruction)) :=
    fun names => List.monotone_filter_right names fun _ => h.escapes
  unfold escapesAt
  apply List.Sublist.map
  obtain ⟨offset, kind⟩ := instruction
  cases kind with
  | athrow stackTop =>
      cases hmode : thin.usesHierarchy with
      | true =>
          rw [List.filter_eq_nil_iff.mpr]
          · exact List.nil_sublist _
          · intro name _
            simp [hthrows hmode stackTop rfl name]
      | false =>
          have hother : context.usesHierarchy = false := h.usesHierarchy.symm.trans hmode
          simp only [mentioned, handsOn_textual hmode, handsOn_textual hother]
          exact hfilter _
  | invoke target dispatch =>
      simp only [mentioned]
      cases hcallee : thin.callee? target dispatch with
      | none => exact List.nil_sublist _
      | some callee =>
          rw [h.callee? hcallee]
          exact hfilter _
  | checkCast target => exact List.nil_sublist _
  | store slot => exact List.nil_sublist _
  | load slot => exact List.nil_sublist _
  | ret => exact List.nil_sublist _
  | other => exact List.nil_sublist _

theorem escapesFrom_sublist (body : MethodBody) (before code : List Instruction)
    (hthrows : thin.usesHierarchy = true → ∀ (instruction : Instruction) stackTop,
      instruction.kind = .athrow stackTop → ∀ name, thin.escapes body instruction name = false) :
    (thin.escapesFrom body before code).Sublist (context.escapesFrom body before code) := by
  induction code generalizing before with
  | nil => exact List.Sublist.refl _
  | cons instruction code ih =>
      have hfirst := h.escapesAt_sublist body before instruction fun hmode =>
        hthrows hmode instruction
      exact hfirst.append (ih (before ++ [instruction]))

end Thins

end Context

end ExceptionFlow
