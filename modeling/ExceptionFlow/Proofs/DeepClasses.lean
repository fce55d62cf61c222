import ExceptionFlow.Proofs.ClauseOrder
import ExceptionFlow.Proofs.Recording
/-!
Classes with more superclasses than the limit allows. On an empty memo such a class is refused, but
once a class above it is known it resolves. So what a call throws can hang on what was resolved
before, and even on the order of the names in a throws clause.
-/
namespace ExceptionFlow

/-- The two sources know the same classes with the same superclasses. -/
def SameHierarchy (source other : ClassSource) : Prop :=
  ∀ name, (source name).map ClassDecl.parent = (other name).map ClassDecl.parent

theorem SameHierarchy.symm {source other : ClassSource} (h : SameHierarchy source other) :
    SameHierarchy other source :=
  fun name => (h name).symm

theorem SameHierarchy.exists_class {source other : ClassSource} (h : SameHierarchy source other)
    {name : ClassName} {cls : ClassDecl} (hcls : source name = .ok cls) :
    ∃ found, other name = .ok found ∧ found.parent = cls.parent := by
  have hname := h name
  rw [hcls] at hname
  cases hfound : other name with
  | error failure =>
      rw [hfound] at hname
      cases hname
  | ok found =>
      rw [hfound] at hname
      exact ⟨found, rfl, (Except.ok.inj hname).symm⟩

theorem SameHierarchy.ascent {source other : ClassSource} (h : SameHierarchy source other)
    {name : ClassName} {above : List ClassName} (habove : Ascent source name above) :
    Ascent other name above := by
  induction habove with
  | root hcls hparent =>
      obtain ⟨found, hfound, hsame⟩ := h.exists_class hcls
      exact .root hfound (hsame.trans hparent)
  | step hcls hparent _ ih =>
      obtain ⟨found, hfound, hsame⟩ := h.exists_class hcls
      exact .step hfound (hsame.trans hparent) ih

/-- The source with the methods of one class replaced by a single one. -/
def declaring (source : ClassSource) (owner : ClassName) (method : MethodDecl) : ClassSource :=
  fun name =>
    if name = owner then (source name).map fun cls => { cls with methods := [method] }
    else source name

theorem sameHierarchy_declaring (source : ClassSource) (owner : ClassName) (method : MethodDecl) :
    SameHierarchy source (declaring source owner method) := by
  intro name
  unfold declaring
  by_cases howner : name = owner
  · rw [if_pos howner]
    cases source name <;> rfl
  · rw [if_neg howner]

namespace Context

variable {context : Context} {memo : Memo} {name parent : ClassName} {rest : List ClassName}

/-- A class resolves once its superclass is known, however many superclasses it has. -/
theorem resolve_of_knows_parent (hmode : context.usesHierarchy = true)
    (hdepth : 0 < context.config.maxDepth) (hmemo : memo.Reachable context)
    (habove : Ascent context.source name (parent :: rest)) (hknows : memo.Knows parent) :
    ((context.resolve name).run memo).value = .ok (.ofAncestors name (parent :: rest)) := by
  obtain ⟨budget, hbudget⟩ : ∃ budget, context.config.maxDepth = budget + 1 :=
    ⟨context.config.maxDepth - 1, by omega⟩
  have hends : Lineage.EndsWithin memo context.config.maxDepth (parent :: rest) := by
    rw [hbudget, Lineage.endsWithin_succ_cons]
    exact Or.inl hknows
  exact (resolve_eq_ok_iff hmode hmemo name _).mpr ⟨_, habove, Or.inr hends, rfl⟩

/-- The memo after resolving classes one after another. -/
def warm (context : Context) (memo : Memo) (names : List ClassName) : Memo :=
  names.foldl (fun memo name => ((context.resolve name).run memo).memo) memo

theorem warm_append (context : Context) (memo : Memo) (first second : List ClassName) :
    context.warm memo (first ++ second) = context.warm (context.warm memo first) second :=
  List.foldl_append

/-- What resolving one class keeps, resolving classes one after another keeps. -/
theorem warm_induction {P : Memo → Prop}
    (hstep : ∀ memo name, P memo → P ((context.resolve name).run memo).memo) (h : P memo)
    (names : List ClassName) : P (context.warm memo names) := by
  induction names generalizing memo with
  | nil => exact h
  | cons name names ih => exact ih (hstep memo name h)

theorem warm_reachable (hmemo : memo.Reachable context) (names : List ClassName) :
    (context.warm memo names).Reachable context :=
  warm_induction (fun _ name hreachable => hreachable.resolve name) hmemo names

/-- Resolving from the topmost class downwards gets a whole chain into the memo, and nothing
else. -/
theorem knows_warm_iff (hmode : context.usesHierarchy = true)
    (hdepth : 0 < context.config.maxDepth) {above : List ClassName}
    (habove : Ascent context.source name above) :
    ∀ other, (context.warm {} (name :: above).reverse).Knows other ↔ other ∈ name :: above := by
  induction habove with
  | @root name _ hcls hparent =>
      intro other
      have hok := (resolve_eq_ok_iff hmode .empty name _).mpr
        ⟨[], .root hcls hparent, Or.inr (Lineage.endsWithin_nil _ _), rfl⟩
      change ((context.resolve name).run {}).memo.Knows other ↔ _
      rw [knows_resolve_iff hmode, hok]
      simp
  | @step name parent _ above hcls hparent hrest ih =>
      intro other
      have hok := resolve_of_knows_parent hmode hdepth
        (warm_reachable .empty (parent :: above).reverse) (.step hcls hparent hrest)
        ((ih parent).mpr List.mem_cons_self)
      rw [List.reverse_cons, warm_append]
      change ((context.resolve name).run _).memo.Knows other ↔ _
      rw [knows_resolve_iff hmode, hok, ih other, List.mem_cons]
      simp [or_comm]

/-- The class has more superclasses than the limit allows, which is not zero. -/
structure BeyondLimit (context : Context) (name : ClassName) (above : List ClassName) : Prop where
  hierarchy : context.usesHierarchy = true
  positive : 0 < context.config.maxDepth
  ascent : Ascent context.source name above
  deep : context.config.maxDepth < above.length

namespace BeyondLimit

theorem exists_parent {above : List ClassName} (h : context.BeyondLimit name above) :
    ∃ parent rest, above = parent :: rest :=
  List.exists_cons_of_length_pos (Nat.zero_lt_of_lt h.deep)

theorem ne_parent (h : context.BeyondLimit name (parent :: rest)) : name ≠ parent := by
  rintro rfl
  exact h.ascent.not_mem List.mem_cons_self

theorem exists_memo_resolving {above : List ClassName} (h : context.BeyondLimit name above) :
    ∃ memo : Memo, memo.Reachable context ∧
      ((context.resolve name).run memo).value = .ok (.ofAncestors name above) := by
  have hmemo := warm_reachable (.empty : Memo.Reachable context {}) (name :: above).reverse
  have hname := (knows_warm_iff h.hierarchy h.positive h.ascent name).mpr List.mem_cons_self
  exact ⟨_, hmemo,
    (resolve_eq_ok_iff h.hierarchy hmemo name _).mpr ⟨above, h.ascent, Or.inl hname, rfl⟩⟩

end BeyondLimit

/-- The memo that knows the first class beyond the limit and those above it. -/
def brink (context : Context) (above : List ClassName) : Memo :=
  context.warm {} (above.drop context.config.maxDepth).reverse

theorem brink_reachable (context : Context) (above : List ClassName) :
    (context.brink above).Reachable context :=
  warm_reachable .empty _

/-- At the brink the class is refused, and yet its superclass gets through. -/
theorem BeyondLimit.brink_resolves (h : context.BeyondLimit name (parent :: rest)) :
    (∃ failure,
        ((context.resolve name).run (context.brink (parent :: rest))).value = .error failure) ∧
      ∃ lineage,
        ((context.resolve parent).run (context.brink (parent :: rest))).value = .ok lineage := by
  obtain ⟨hmode, hdepth, habove, hdeep⟩ := h
  obtain ⟨budget, hbudget⟩ : ∃ budget, context.config.maxDepth = budget + 1 :=
    ⟨context.config.maxDepth - 1, by omega⟩
  have hlength : budget < rest.length := by
    rw [hbudget, List.length_cons] at hdeep
    omega
  -- the class is one step too far from `first`, its superclass is not
  obtain ⟨before, first, after, rfl, hbefore⟩ : ∃ before first after,
      rest = before ++ first :: after ∧ before.length = budget := by
    refine ⟨rest.take budget, rest[budget], rest.drop (budget + 1), ?_, ?_⟩
    · rw [← List.drop_eq_getElem_cons hlength, List.take_append_drop]
    · rw [List.length_take]
      omega
  have hparent : Ascent context.source parent (before ++ first :: after) := by
    cases habove with
    | step _ _ hrest => exact hrest
  have hmemo := context.brink_reachable (parent :: (before ++ first :: after))
  have hknows : ∀ other, (context.brink (parent :: (before ++ first :: after))).Knows other ↔
      other ∈ first :: after := by
    rw [brink, hbudget, List.drop_succ_cons, ← hbefore, List.drop_left]
    exact knows_warm_iff hmode hdepth hparent.of_append
  have hnodup : ((name :: parent :: before) ++ first :: after).Nodup := habove.nodup
  have hunknown : ∀ other ∈ name :: parent :: before,
      ¬ (context.brink (parent :: (before ++ first :: after))).Knows other := by
    intro other hother hknown
    exact (List.nodup_append.mp hnodup).2.2 other hother other ((hknows other).mp hknown) rfl
  generalize context.brink (parent :: (before ++ first :: after)) = memo at hmemo hknows hunknown
  refine ⟨?_, ?_⟩
  · cases hvalue : ((context.resolve name).run memo).value with
    | error failure => exact ⟨failure, rfl⟩
    | ok lineage =>
        obtain ⟨above, hother, hanswers, _⟩ :=
          (resolve_eq_ok_iff hmode hmemo name lineage).mp hvalue
        obtain rfl := hother.unique habove
        rcases hanswers with hname | hlength | ⟨known, hknown, hmemoKnows⟩
        · exact absurd hname (hunknown name List.mem_cons_self)
        · omega
        · rw [hbudget, List.take_succ_cons, List.take_left' hbefore] at hknown
          exact absurd hmemoKnows (hunknown known (List.mem_cons_of_mem name hknown))
  · have hends : Lineage.EndsWithin memo context.config.maxDepth (before ++ first :: after) := by
      refine Or.inr ⟨first, ?_, (hknows first).mpr List.mem_cons_self⟩
      rw [hbudget, ← hbefore]
      simp [List.take_append]
    exact ⟨_, (resolve_eq_ok_iff hmode hmemo parent _).mpr ⟨_, hparent, Or.inr hends, rfl⟩⟩

end Context

def CallTarget.thrower (target : CallTarget) (exceptions : List ClassName) : MethodDecl :=
  { name := target.name
    descriptor := target.descriptor
    flags := .ofFlag .staticMember
    exceptions }

theorem CallTarget.throwsClause_thrower (target : CallTarget) {exceptions : List ClassName}
    (h : exceptions.Nodup) : (target.thrower exceptions).throwsClause.entries = exceptions :=
  (ThrowsClause.entries_ofList exceptions).trans (ThrowsClause.eraseDups_of_nodup h)

namespace Context

/-- The call means a declaration whose throws clause has these names. -/
def Declares (context : Context) (target : CallTarget) (dispatch : Dispatch)
    (names : List ClassName) : Prop :=
  ∃ callee, context.callee? target dispatch = some callee ∧
    callee.method.throwsClause.entries = names

/-- A static call means the method of its owner that has its name and its descriptor. -/
theorem declares_static {context : Context} {target : CallTarget} {cls : ClassDecl}
    {exceptions : List ClassName} (harray : target.hasArrayOwner = false)
    (hcls : context.source target.owner = .ok cls)
    (hmethod : cls.method? target.name target.descriptor = some (target.thrower exceptions))
    (hnodup : exceptions.Nodup) : context.Declares target .static exceptions := by
  have hflag : (AccessFlags.ofFlag .staticMember).has .staticMember = true := by decide
  have hdeclared : Callee.declaredIn? target .static cls =
      some ⟨cls.name, target.thrower exceptions⟩ := by
    simp [Callee.declaredIn?, hmethod, CallTarget.thrower, MethodDecl.isStatic, hflag]
  refine ⟨⟨cls.name, target.thrower exceptions⟩, callee?_eq_some_iff.mpr ⟨harray, ?_⟩,
    target.throwsClause_thrower hnodup⟩
  unfold Callee.resolve Callee.searchLimit Callee.climb
  simp [hcls, hdeclared, bind, Except.bind]

theorem declares_declaring {context : Context} {target : CallTarget}
    (howner : context.HasOwner target) {exceptions : List ClassName} (hnodup : exceptions.Nodup) :
    Declares
      { context with source := declaring context.source target.owner (target.thrower exceptions) }
      target .static exceptions := by
  obtain ⟨harray, cls, hcls⟩ := howner
  have hdeclaring : declaring context.source target.owner (target.thrower exceptions)
      target.owner = .ok { cls with methods := [target.thrower exceptions] } := by
    simp [declaring, hcls, Except.map]
  refine declares_static harray hdeclaring ?_ hnodup
  simp [ClassDecl.method?, CallTarget.thrower]

theorem BeyondLimit.exists_declares {context : Context} {name : ClassName} {above : List ClassName}
    (h : context.BeyondLimit name above) {target : CallTarget} (howner : context.HasOwner target)
    {exceptions : List ClassName} (hnodup : exceptions.Nodup) :
    ∃ source, SameHierarchy context.source source ∧
      BeyondLimit { context with source } name above ∧
      Declares { context with source } target .static exceptions := by
  have hsame := sameHierarchy_declaring context.source target.owner (target.thrower exceptions)
  exact ⟨_, hsame, ⟨h.hierarchy, h.positive, hsame.ascent h.ascent, h.deep⟩,
    declares_declaring howner hnodup⟩

section Passes

variable {context : Context} {memo : Memo} {name : ClassName}

theorem checkedNames_refused {failure : Failure}
    (h : ((context.resolve name).run memo).value = .error failure) (names : List ClassName) :
    ((context.checkedNames (name :: names)).run memo).value =
        name :: ((context.checkedNames names).run memo).value ∧
      ((context.checkedNames (name :: names)).run memo).memo =
        ((context.checkedNames names).run memo).memo := by
  rw [checkedNames]
  simp [h, resolve_memo_of_error h]

theorem checkedNames_resolved {lineage : Lineage}
    (h : ((context.resolve name).run memo).value = .ok lineage) (names : List ClassName) :
    ((context.checkedNames (name :: names)).run memo).value =
        (if lineage.isUnchecked then [] else [name]) ++
          ((context.checkedNames names).run ((context.resolve name).run memo).memo).value ∧
      ((context.checkedNames (name :: names)).run memo).memo =
        ((context.checkedNames names).run ((context.resolve name).run memo).memo).memo := by
  rw [checkedNames]
  cases hunchecked : lineage.isUnchecked <;> simp [h, hunchecked]

theorem run_resolveOrRemark (context : Context) (name : ClassName) (memo : Memo) :
    ((context.resolveOrRemark name).run memo).value =
        ((context.resolve name).run memo).value.toOption ∧
      ((context.resolveOrRemark name).run memo).memo = ((context.resolve name).run memo).memo := by
  unfold resolveOrRemark
  cases hvalue : ((context.resolve name).run memo).value <;> simp [hvalue, Except.toOption]

end Passes

end Context

namespace FlowLog

variable {context : Context} {memo : Memo} {name : ClassName}

theorem addEvents_refused (flow : FlowLog) {failure : Failure}
    (h : ((context.resolve name).run memo).value = .error failure) (offset : Nat)
    (names : List ClassName) :
    ((flow.addEvents context offset (name :: names)).run memo).value =
      ((flow.addEvents context offset names).run memo).value := by
  obtain ⟨hvalue, hmemo⟩ := context.run_resolveOrRemark name memo
  rw [h, Except.toOption] at hvalue
  rw [Context.resolve_memo_of_error h] at hmemo
  rw [addEvents]
  simp [hvalue, hmemo]

theorem addEvents_resolved (flow : FlowLog) {lineage : Lineage}
    (h : ((context.resolve name).run memo).value = .ok lineage) (offset : Nat)
    (names : List ClassName) :
    ((flow.addEvents context offset (name :: names)).run memo).value =
      (((flow.addAll [⟨lineage, offset⟩]).addEvents context offset names).run
        ((context.resolve name).run memo).memo).value := by
  obtain ⟨hvalue, hnext⟩ := context.run_resolveOrRemark name memo
  rw [h, Except.toOption] at hvalue
  rw [addEvents]
  simp only [Action.run_bind, hvalue, hnext, addEvent, Action.run_log, Action.run_pure]
  rfl

theorem mem_events_addEvents (flow : FlowLog) {lineage : Lineage}
    (h : ((context.resolve name).run memo).value = .ok lineage) (offset : Nat)
    (names : List ClassName) :
    ⟨lineage, offset⟩ ∈
      ((flow.addEvents context offset (name :: names)).run memo).value.events := by
  obtain ⟨_, _, lineages, _, hrest⟩ := (flow.addAll [⟨lineage, offset⟩]).addEvents_plainly
    context.resolves_named offset names ((context.resolve name).run memo).memo trivial
  rw [flow.addEvents_resolved h, hrest]
  simp [addAll]

/-- A call of a known method passes twice over its throws clause. -/
theorem run_recordCall_some (flow : FlowLog) (hmode : context.usesHierarchy = true)
    {target : CallTarget} {dispatch : Dispatch} {callee : Callee}
    (hcallee : context.callee? target dispatch = some callee) (offset : Nat) (memo : Memo) :
    let first := (context.checkedNames callee.method.throwsClause.entries).run memo
    let second := (flow.forgetCall.addEvents context offset first.value).run first.memo
    ((flow.recordCall context target dispatch offset).run memo).value =
        { second.value with lastCall := some (callee.owner, callee.method.name) } ∧
      ((flow.recordCall context target dispatch offset).run memo).memo = second.memo := by
  obtain ⟨harray, hresolve⟩ := Context.callee?_eq_some_iff.mp hcallee
  obtain ⟨hclause, hmemo, _⟩ := callee.method.readThrowsClause_yields memo
  obtain ⟨hkept, hnext⟩ := Context.run_withoutUnchecked hmode callee.method.throwsClause memo
  unfold recordCall
  simp only [harray, Bool.false_eq_true, if_false, hresolve, addCallee, Action.run_bind, hclause,
    hmemo, hkept, hnext, Action.run_pure, and_self]

/-- A call adds the names that the first pass keeps and the second pass resolves. -/
theorem recordInstruction_call (flow : FlowLog) {target : CallTarget} {dispatch : Dispatch}
    {names : List ClassName} (hmode : context.usesHierarchy = true)
    (hdeclares : context.Declares target dispatch names) (offset : Nat) (memo : Memo) :
    ((flow.recordInstruction context ⟨offset, .invoke target dispatch⟩).run memo).value.events =
      ((flow.forgetCall.addEvents context offset
        ((context.checkedNames names).run memo).value).run
          ((context.checkedNames names).run memo).memo).value.events := by
  obtain ⟨callee, hcallee, rfl⟩ := hdeclares
  change ((flow.recordCall context target dispatch offset).run memo).value.events = _
  rw [(flow.run_recordCall_some hmode hcallee offset memo).1]

section Calls

variable {parent : ClassName} {rest : List ClassName} {lineage : Lineage} {failure : Failure}
  {target : CallTarget} {dispatch : Dispatch}

/-- The first pass keeps a class it cannot resolve. If it resolves the superclass after that, the
second pass gets through to the class, checked or not. -/
theorem mem_events_of_refused (flow : FlowLog)
    (hbeyond : context.BeyondLimit name (parent :: rest)) (hmemo : memo.Reachable context)
    (hrefused : ((context.resolve name).run memo).value = .error failure)
    (hparent : ((context.resolve parent).run memo).value = .ok lineage)
    (hdeclares : context.Declares target dispatch [name, parent]) (offset : Nat) :
    ⟨.ofAncestors name (parent :: rest), offset⟩ ∈ ((flow.recordInstruction context
      ⟨offset, .invoke target dispatch⟩).run memo).value.events := by
  obtain ⟨hkept, hfirst⟩ := Context.checkedNames_refused hrefused [parent]
  obtain ⟨_, hsecond⟩ := Context.checkedNames_resolved hparent []
  have hlast : ((context.checkedNames [name, parent]).run memo).memo =
      ((context.resolve parent).run memo).memo :=
    hfirst.trans hsecond
  have hresolves := Context.resolve_of_knows_parent hbeyond.hierarchy hbeyond.positive
    (hmemo.resolve parent) hbeyond.ascent (Context.knows_resolve_self hbeyond.hierarchy hparent)
  rw [flow.recordInstruction_call hbeyond.hierarchy hdeclares, hkept, hlast]
  exact mem_events_addEvents _ hresolves offset _

theorem not_mem_events_of_unchecked (flow : FlowLog) (hmode : context.usesHierarchy = true)
    (hmemo : memo.Reachable context)
    (hresolved : ((context.resolve name).run memo).value = .ok lineage)
    (hunchecked : lineage.isUnchecked = true) (hne : name ≠ parent)
    (hdeclares : context.Declares target dispatch [name, parent]) (offset : Nat) :
    ∀ event ∈ ((flow.recordInstruction context ⟨offset, .invoke target dispatch⟩).run
        memo).value.events,
      event ∈ flow.events ∨ event.exception.name ≠ name := by
  obtain ⟨hvalue, hlast⟩ := Context.checkedNames_resolved hresolved [parent]
  obtain ⟨hnext, _, hkept⟩ :=
    Context.checkedNames_plainly context.resolves_reachable [parent] _ (hmemo.resolve name)
  rw [hunchecked, if_pos rfl, List.nil_append] at hvalue
  obtain ⟨_, _, lineages, hresolves, hevents⟩ :=
    flow.forgetCall.addEvents_plainly context.resolves_reachable offset _ _ hnext
  rw [recordInstruction_call _ hmode hdeclares, hvalue, hlast, hevents]
  intro event hevent
  refine (List.mem_append.mp hevent).imp_right ?_
  rintro hraised rfl
  obtain ⟨exception, hexception, rfl⟩ := List.mem_map.mp hraised
  have hmem : exception.name ∈ [parent] :=
    (hresolves.resolved.sublist.trans hkept.sublist).subset (List.mem_map_of_mem hexception)
  exact hne (List.mem_singleton.mp hmem)

theorem events_of_refused (flow : FlowLog) (hmode : context.usesHierarchy = true)
    (hrefused : ((context.resolve name).run memo).value = .error failure)
    (hdeclares : context.Declares target dispatch [name]) (offset : Nat) :
    ((flow.recordInstruction context ⟨offset, .invoke target dispatch⟩).run memo).value.events =
      flow.events := by
  obtain ⟨hkept, hlast⟩ := Context.checkedNames_refused hrefused []
  have hsame : ((context.checkedNames [name]).run memo).memo = memo := hlast
  rw [flow.recordInstruction_call hmode hdeclares, hkept, hsame, addEvents_refused _ hrefused]
  rfl

theorem mem_events_of_checked (flow : FlowLog) (hmode : context.usesHierarchy = true)
    (hmemo : memo.Reachable context)
    (hresolved : ((context.resolve name).run memo).value = .ok lineage)
    (hchecked : lineage.isUnchecked = false)
    (hdeclares : context.Declares target dispatch [name]) (offset : Nat) :
    ⟨lineage, offset⟩ ∈ ((flow.recordInstruction context
      ⟨offset, .invoke target dispatch⟩).run memo).value.events := by
  obtain ⟨hvalue, hlast⟩ := Context.checkedNames_resolved hresolved []
  rw [hchecked, if_neg Bool.false_ne_true] at hvalue
  have hnext : ((context.checkedNames [name]).run memo).memo =
      ((context.resolve name).run memo).memo :=
    hlast
  have hknows := Context.knows_resolve_self hmode hresolved
  obtain ⟨above, habove, _, hlineage⟩ :=
    (Context.resolve_eq_ok_iff hmode hmemo name lineage).mp hresolved
  have hagain := (Context.resolve_eq_ok_iff hmode (hmemo.resolve name) name lineage).mpr
    ⟨above, habove, Or.inl hknows, hlineage⟩
  rw [flow.recordInstruction_call hmode hdeclares, hvalue, hnext]
  exact mem_events_addEvents _ hagain offset _

end Calls

end FlowLog

end ExceptionFlow
