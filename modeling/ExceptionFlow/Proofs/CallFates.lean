import ExceptionFlow.Proofs.DeadCatch
import ExceptionFlow.Proofs.Handover
import ExceptionFlow.Proofs.Reading
import ExceptionFlow.Proofs.Unchecked
import Mathlib.Data.List.Forall2
/-!
What a call leaves behind. Every name in the throws clause of the method that is called comes to an
event, to a notice or, if it is known to be unchecked, to nothing. The clause is gone through twice,
and the memo grows all the while: a name that is refused in the first pass may resolve in the second
one, but a name that is refused in the second pass was refused for the same reason from the start.
-/
namespace ExceptionFlow

/-- What the first memo knows, the second one knows alike. -/
def Memo.PartOf (memo later : Memo) : Prop :=
  ∀ name lineage, memo.find? name = some lineage → later.find? name = some lineage

namespace Memo.PartOf

variable {memo later last : Memo}

theorem refl (memo : Memo) : memo.PartOf memo :=
  fun _ _ => id

theorem trans (hfirst : memo.PartOf later) (hsecond : later.PartOf last) : memo.PartOf last :=
  fun name lineage hknown => hsecond name lineage (hfirst name lineage hknown)

theorem find?_eq_none (h : memo.PartOf later) {name : ClassName}
    (hlater : later.find? name = none) : memo.find? name = none := by
  cases hknown : memo.find? name with
  | none => rfl
  | some lineage =>
      rw [h name lineage hknown] at hlater
      cases hlater

theorem insert {memo : Memo} {lineage : Lineage} (hunknown : memo.find? lineage.name = none) :
    memo.PartOf (memo.insert lineage) := by
  intro other known hknown
  rw [Memo.find?_insert]
  split
  · rename_i heq
    rw [heq, hunknown] at hknown
    cases hknown
  · exact hknown

end Memo.PartOf

namespace Lineage

variable {source : ClassSource} {memo later : Memo} {failure : Failure}

/-- A climb that fails passes no class that is known, so it fails alike when less is known. -/
theorem climb_error_of_partOf (h : memo.PartOf later) (limit budget : Nat) (seen : List ClassName)
    (cls : ClassDecl) (herror : climb source later limit budget seen cls = .error failure) :
    climb source memo limit budget seen cls = .error failure := by
  induction budget generalizing seen cls with
  | zero =>
      cases hparent : cls.parent with
      | none =>
          rw [climb_root hparent] at herror
          cases herror
      | some parent =>
          rw [climb_zero hparent] at herror ⊢
          exact herror
  | succ budget ih =>
      cases hparent : cls.parent with
      | none =>
          rw [climb_root hparent] at herror
          cases herror
      | some parent =>
          by_cases hseen : parent ∈ seen
          · rw [climb_cycle hparent hseen] at herror ⊢
            exact herror
          · cases hknown : later.find? parent with
            | some known =>
                rw [climb_known hparent hseen hknown] at herror
                cases herror
            | none =>
                rw [climb_unknown hparent hseen hknown] at herror
                rw [climb_unknown hparent hseen (h.find?_eq_none hknown)]
                cases hnext : source parent with
                | error cause =>
                    rw [hnext] at herror
                    exact herror
                | ok next =>
                    rw [hnext] at herror
                    exact ih _ next herror

theorem find_error_of_partOf (h : memo.PartOf later) {limit : Nat} {name : ClassName}
    (herror : find source later limit name = .error failure) :
    find source memo limit name = .error failure := by
  rw [find_eq_error_iff_climb] at herror ⊢
  cases hcls : source name with
  | error cause =>
      rw [hcls] at herror
      exact herror
  | ok cls =>
      rw [hcls] at herror
      exact climb_error_of_partOf h limit limit [name] cls herror

end Lineage

namespace Context

variable {context : Context} {memo later : Memo} {name : ClassName} {lineage : Lineage}

theorem partOf_resolve (context : Context) (memo : Memo) (name : ClassName) :
    memo.PartOf ((context.resolve name).run memo).memo := by
  have hcase := context.resolve_cases memo name
  generalize (context.resolve name).run memo = outcome at hcase ⊢
  cases hcase with
  | found _ hunknown hfind =>
      obtain rfl := Lineage.name_of_find hfind
      exact .insert hunknown
  | _ => exact .refl memo

theorem find?_of_resolve (hmode : context.usesHierarchy = true)
    (h : ((context.resolve name).run memo).value = .ok lineage) :
    ((context.resolve name).run memo).memo.find? name = some lineage := by
  have hcase := context.resolve_cases memo name
  generalize (context.resolve name).run memo = outcome at hcase h ⊢
  cases hcase with
  | textual hother =>
      rw [hmode] at hother
      cases hother
  | known _ hknown =>
      cases h
      exact hknown
  | found _ hunknown hfind =>
      cases h
      obtain rfl := Lineage.name_of_find hfind
      simp [Memo.find?_insert, hunknown]
  | refused => cases h

theorem resolve_of_find? (hmode : context.usesHierarchy = true)
    (h : memo.find? name = some lineage) :
    ((context.resolve name).run memo).value = .ok lineage := by
  unfold resolve
  simp [hmode, h]

theorem resolve_error_of_partOf (h : memo.PartOf later) {failure : Failure}
    (herror : ((context.resolve name).run later).value = .error failure) :
    ((context.resolve name).run memo).value = .error failure := by
  have hcase := context.resolve_cases later name
  generalize (context.resolve name).run later = outcome at hcase herror
  cases hcase with
  | textual => cases herror
  | known => cases herror
  | found => cases herror
  | refused hmode hunknown hfind =>
      cases herror
      have hearlier := Lineage.find_error_of_partOf h hfind
      unfold resolve
      simp [hmode, h.find?_eq_none hunknown, findLineage, hearlier]

end Context

section Remarks

variable {α β : Type} {context : Context} {memo : Memo} {name : ClassName}

theorem Action.remarks_bind (action : Action α) (next : α → Action β) (memo : Memo) :
    ((action >>= next).run memo).remarks =
      (action.run memo).remarks ++
        ((next (action.run memo).value).run (action.run memo).memo).remarks := by
  simp [Outcome.remarks]

theorem Context.remarks_resolve (context : Context) (name : ClassName) (memo : Memo) :
    ((context.resolve name).run memo).remarks = [] := by
  have hcase := context.resolve_cases memo name
  generalize (context.resolve name).run memo = outcome at hcase ⊢
  cases hcase <;> rfl

theorem Context.remarks_resolveOrRemark_ok {lineage : Lineage}
    (h : ((context.resolve name).run memo).value = .ok lineage) :
    ((context.resolveOrRemark name).run memo).remarks = [] := by
  unfold resolveOrRemark
  rw [Action.remarks_bind, context.remarks_resolve, h]
  rfl

theorem Context.remarks_resolveOrRemark_error {cause : Failure}
    (h : ((context.resolve name).run memo).value = .error cause) :
    ((context.resolveOrRemark name).run memo).remarks =
      [.ofFailure (.resolving name cause) cause] := by
  unfold resolveOrRemark
  rw [Action.remarks_bind, context.remarks_resolve, h]
  rfl

theorem Context.remarks_checkedNames (context : Context) (names : List ClassName) (memo : Memo) :
    ((context.checkedNames names).run memo).remarks = [] := by
  induction names generalizing memo with
  | nil => rfl
  | cons name names ih =>
      rw [checkedNames, Action.remarks_bind, context.remarks_resolve, Action.remarks_bind, ih]
      cases ((context.resolve name).run memo).value <;> rfl

theorem Context.remarks_withoutUnchecked (context : Context) (clause : ThrowsClause)
    (memo : Memo) : ((context.withoutUnchecked clause).run memo).remarks = [] := by
  unfold withoutUnchecked
  split
  · rw [Action.remarks_bind, context.remarks_checkedNames]
    rfl
  · rfl

theorem MethodDecl.remarks_readThrowsClause (method : MethodDecl) (memo : Memo) :
    (method.readThrowsClause.run memo).remarks = [] := by
  unfold readThrowsClause
  split <;> rfl

theorem Ledger.notices_record (ledger : Ledger) (emission : Emission) :
    (ledger.record emission).notices =
      ledger.notices ++ emission.remark?.toList.map Remark.notice := by
  cases emission with
  | log => exact (List.append_nil _).symm
  | remark => rfl
  | flush batch verdict =>
      cases verdict with
      | error => exact (List.append_nil _).symm
      | ok =>
          change (ledger.addBatch batch).notices = ledger.notices ++ []
          unfold addBatch
          split <;> simp

theorem Ledger.notices_recordAll (ledger : Ledger) (emitted : List Emission) :
    (ledger.recordAll emitted).notices =
      ledger.notices ++ (emitted.filterMap Emission.remark?).map Remark.notice := by
  induction emitted generalizing ledger with
  | nil => exact (List.append_nil _).symm
  | cons emission emitted ih =>
      have hrest : ledger.recordAll (emission :: emitted) =
          (ledger.record emission).recordAll emitted := rfl
      rw [hrest, ih, notices_record]
      cases hsaid : emission.remark? <;> simp [hsaid]

/-- An action that hands over nothing adds to the notices of a ledger only. -/
theorem Ledger.recordAll_of_flushes (ledger : Ledger) {outcome : Outcome α}
    (h : outcome.flushes = []) :
    ledger.recordAll outcome.emitted =
      { ledger with notices := ledger.notices ++ outcome.remarks.map Remark.notice } := by
  have hbatches := ledger.batches_recordAll outcome.emitted
  have hnotices := ledger.notices_recordAll outcome.emitted
  have hkept : kept outcome.emitted = [] := by
    change (outcome.flushes.filter keeps).map Prod.fst = []
    rw [h]
    rfl
  rw [hkept, List.append_nil] at hbatches
  exact (Ledger.mk.injEq ..).mpr ⟨hbatches, hnotices⟩

end Remarks

/-- How a failure is told that the analysis goes past: a class that is not there by its name, every
other cause by what the analysis was doing. -/
inductive Failure.ToldAs (mishap : Mishap) : Failure → Notice → Prop where
  | missing (name : String) : ToldAs mishap (.typeNotFound name) (.missingType ⟨name⟩)
  | recovered {cause : Failure} (hcause : ∀ name, cause ≠ .typeNotFound name) :
      ToldAs mishap cause (.recovered mishap.message)

theorem Failure.toldAs_ofFailure (cause : Failure) (mishap : Mishap) :
    cause.ToldAs mishap (Remark.ofFailure mishap cause).notice := by
  cases cause with
  | typeNotFound name => exact .missing name
  | _ => exact .recovered fun _ => by simp

/-- What a name in a throws clause comes to at a call. -/
inductive Fate where
  | recorded (event : ThrowEvent)
  | noticed (notice : Notice)
  | dropped

namespace Fate

def events : Fate → List ThrowEvent
  | recorded event => [event]
  | _ => []

def notices : Fate → List Notice
  | noticed notice => [notice]
  | _ => []

end Fate

/-- The fate of a name at a call, with the memo before and after it.

* A class that resolves is recorded at the call. It is checked, or it was refused at first.
* A class that is refused is told of, once.
* A runtime exception or an error that resolves is dropped. -/
inductive Context.Befalls (context : Context) (before after : Memo) (offset : Nat)
    (name : ClassName) : Fate → Prop where
  | recorded {lineage : Lineage} (hname : lineage.name = name)
      (hresolved : ((context.resolve name).run after).value = .ok lineage)
      (hchecked : IsChecked lineage.ancestors ∨
        ∃ cause, ((context.resolve name).run before).value = .error cause) :
      Befalls context before after offset name (.recorded ⟨lineage, offset⟩)
  | noticed {cause : Failure} {notice : Notice}
      (hrefused : ((context.resolve name).run before).value = .error cause)
      (htold : cause.ToldAs (.resolving name cause) notice) :
      Befalls context before after offset name (.noticed notice)
  | dropped {lineage : Lineage}
      (hresolved : ((context.resolve name).run after).value = .ok lineage)
      (hunchecked : .runtimeException ∈ lineage.ancestors ∨ .error ∈ lineage.ancestors) :
      Befalls context before after offset name .dropped

/-- The events and the notices that a call adds. -/
inductive Context.CallAdds (context : Context) (before after : Memo) (target : CallTarget)
    (dispatch : Dispatch) (offset : Nat) : List ThrowEvent → List Notice → Prop where
  | array (harray : target.hasArrayOwner = true) :
      CallAdds context before after target dispatch offset [] []
  | unmatched (harray : target.hasArrayOwner = false)
      (hresolve : Callee.resolve context.source target dispatch = .ok none) :
      CallAdds context before after target dispatch offset [] []
  | failed {cause : Failure} {notice : Notice} (harray : target.hasArrayOwner = false)
      (hresolve : Callee.resolve context.source target dispatch = .error cause)
      (htold : cause.ToldAs (.lookingUp target.owner cause) notice) :
      CallAdds context before after target dispatch offset [] [notice]
  | matched {callee : Callee} {fates : List Fate} (harray : target.hasArrayOwner = false)
      (hresolve : Callee.resolve context.source target dispatch = .ok (some callee))
      (hfates : List.Forall₂ (context.Befalls before after offset)
        callee.method.throwsClause.entries fates) :
      CallAdds context before after target dispatch offset (fates.flatMap Fate.events)
        (fates.flatMap Fate.notices)

namespace Context

variable {context : Context} {before memo after : Memo} {name : ClassName}

/-- The first pass keeps the name: it was refused at first, or it is known to be checked. -/
def MayBeChecked (context : Context) (before memo : Memo) (name : ClassName) : Prop :=
  (∃ cause, ((context.resolve name).run before).value = .error cause) ∨
    ∃ lineage, memo.find? name = some lineage ∧ IsChecked lineage.ancestors

theorem MayBeChecked.mono (h : context.MayBeChecked before memo name) (hgrows : memo.PartOf after) :
    context.MayBeChecked before after name := by
  refine h.imp_right ?_
  rintro ⟨lineage, hknown, hchecked⟩
  exact ⟨lineage, hgrows name lineage hknown, hchecked⟩

theorem partOf_checkedNames (context : Context) (names : List ClassName) (memo : Memo) :
    memo.PartOf ((context.checkedNames names).run memo).memo := by
  induction names generalizing memo with
  | nil => exact .refl memo
  | cons name names ih =>
      cases hvalue : ((context.resolve name).run memo).value with
      | error cause =>
          rw [(checkedNames_refused hvalue names).2]
          exact ih memo
      | ok lineage =>
          rw [(checkedNames_resolved hvalue names).2]
          exact (context.partOf_resolve memo name).trans (ih _)

theorem mayBeChecked_of_mem_checkedNames (hmode : context.usesHierarchy = true)
    (hbefore : before.PartOf memo) {names : List ClassName}
    (hname : name ∈ ((context.checkedNames names).run memo).value) :
    context.MayBeChecked before ((context.checkedNames names).run memo).memo name := by
  induction names generalizing memo with
  | nil => cases hname
  | cons first names ih =>
      cases hvalue : ((context.resolve first).run memo).value with
      | error cause =>
          obtain ⟨hkept, hlast⟩ := checkedNames_refused hvalue names
          rw [hkept] at hname
          rw [hlast]
          rcases List.mem_cons.mp hname with rfl | hrest
          · exact Or.inl ⟨cause, resolve_error_of_partOf hbefore hvalue⟩
          · exact ih hbefore hrest
      | ok lineage =>
          obtain ⟨hkept, hlast⟩ := checkedNames_resolved hvalue names
          have hgrown := hbefore.trans (context.partOf_resolve memo first)
          rw [hkept] at hname
          rw [hlast]
          rcases List.mem_append.mp hname with hfirst | hrest
          · cases hunchecked : lineage.isUnchecked with
            | true => simp [hunchecked] at hfirst
            | false =>
                obtain rfl : name = first := by simpa [hunchecked] using hfirst
                have hknown : MayBeChecked context before ((context.resolve name).run memo).memo
                    name :=
                  Or.inr ⟨lineage, find?_of_resolve hmode hvalue,
                    lineage.isUnchecked_eq_false_iff.mp hunchecked⟩
                exact hknown.mono (context.partOf_checkedNames names _)
          · exact ih hgrown hrest

/-- The names have fates that leave the same events and notices as these. -/
def LeaveTraces (context : Context) (before after : Memo) (offset : Nat) (names : List ClassName)
    (fates : List Fate) : Prop :=
  ∃ all, List.Forall₂ (context.Befalls before after offset) names all ∧
    all.flatMap Fate.events = fates.flatMap Fate.events ∧
    all.flatMap Fate.notices = fates.flatMap Fate.notices

theorem LeaveTraces.cons {offset : Nat} {names : List ClassName} {fate : Fate} {fates : List Fate}
    (hfate : context.Befalls before after offset name fate)
    (h : context.LeaveTraces before after offset names fates) :
    context.LeaveTraces before after offset (name :: names) (fate :: fates) := by
  obtain ⟨all, hall, hevents, hnotices⟩ := h
  exact ⟨fate :: all, .cons hfate hall, by simp [hevents], by simp [hnotices]⟩

/-- The names that the first pass leaves out are unchecked and leave no trace, so all names together
leave the traces of those that it keeps. -/
theorem leaveTraces_of_checkedNames (hmode : context.usesHierarchy = true) {names : List ClassName}
    {offset : Nat} {fates : List Fate}
    (hafter : ((context.checkedNames names).run memo).memo.PartOf after)
    (hfates : List.Forall₂ (context.Befalls before after offset)
      ((context.checkedNames names).run memo).value fates) :
    context.LeaveTraces before after offset names fates := by
  induction names generalizing memo fates with
  | nil => exact ⟨fates, hfates, rfl, rfl⟩
  | cons name names ih =>
      cases hvalue : ((context.resolve name).run memo).value with
      | error cause =>
          obtain ⟨hkept, hlast⟩ := checkedNames_refused hvalue names
          rw [hlast] at hafter
          rw [hkept] at hfates
          cases hfates with
          | cons hfate hrest => exact (ih hafter hrest).cons hfate
      | ok lineage =>
          obtain ⟨hkept, hlast⟩ := checkedNames_resolved hvalue names
          rw [hlast] at hafter
          rw [hkept] at hfates
          cases hunchecked : lineage.isUnchecked with
          | false =>
              rw [hunchecked] at hfates
              cases hfates with
              | cons hfate hrest => exact (ih hafter hrest).cons hfate
          | true =>
              have hknown := (context.partOf_checkedNames names _).trans hafter name lineage
                (find?_of_resolve hmode hvalue)
              have hfate : context.Befalls before after offset name .dropped :=
                .dropped (resolve_of_find? hmode hknown)
                  (by simpa [Lineage.isUnchecked, Lineage.descendsFrom] using hunchecked)
              rw [hunchecked] at hfates
              exact (ih hafter hfates).cons hfate

/-- A name that the first pass keeps is recorded or told of in the second one. -/
theorem exists_fate (hmode : context.usesHierarchy = true) (hbefore : before.PartOf memo)
    (hafter : ((context.resolve name).run memo).memo.PartOf after)
    (hkept : context.MayBeChecked before memo name) (offset : Nat) :
    ∃ fate, context.Befalls before after offset name fate ∧
      fate.events = (((context.resolve name).run memo).value.toOption.toList.map fun exception =>
        { exception, offset }) ∧
      fate.notices = ((context.resolveOrRemark name).run memo).remarks.map Remark.notice := by
  cases hvalue : ((context.resolve name).run memo).value with
  | error cause =>
      rw [remarks_resolveOrRemark_error hvalue]
      exact ⟨_, .noticed (resolve_error_of_partOf hbefore hvalue) (cause.toldAs_ofFailure _),
        rfl, rfl⟩
  | ok lineage =>
      have hname := Context.name_of_resolve hvalue
      have hknown := find?_of_resolve hmode hvalue
      have hchecked : IsChecked lineage.ancestors ∨
          ∃ cause, ((context.resolve name).run before).value = .error cause := by
        rcases hkept with hrefused | ⟨known, hfind, hchecked⟩
        · exact Or.inr hrefused
        · have hsame := context.partOf_resolve memo name name known hfind
          obtain rfl : known = lineage := Option.some.inj (hsame.symm.trans hknown)
          exact Or.inl hchecked
      rw [remarks_resolveOrRemark_ok hvalue]
      exact ⟨_, .recorded hname (resolve_of_find? hmode (hafter name lineage hknown)) hchecked,
        rfl, rfl⟩

end Context

namespace FlowLog

variable {context : Context} {before after memo : Memo} {offset : Nat}

theorem partOf_addEvents (flow : FlowLog) (context : Context) (offset : Nat)
    (names : List ClassName) (memo : Memo) :
    memo.PartOf ((flow.addEvents context offset names).run memo).memo := by
  induction names generalizing flow memo with
  | nil => exact .refl memo
  | cons name names ih =>
      rw [(flow.run_addEvents_cons context offset name names memo).2]
      exact (context.partOf_resolve memo name).trans (ih _ _)

theorem remarks_addEvents_cons (flow : FlowLog) (context : Context) (offset : Nat)
    (name : ClassName) (names : List ClassName) (memo : Memo) :
    let resolved := (context.resolve name).run memo
    ((flow.addEvents context offset (name :: names)).run memo).remarks =
      ((context.resolveOrRemark name).run memo).remarks ++
        (((flow.addAll (resolved.value.toOption.toList.map fun exception =>
          { exception, offset })).addEvents context offset names).run resolved.memo).remarks := by
  obtain ⟨hvalue, hmemo⟩ := context.run_resolveOrRemark name memo
  dsimp only
  rw [addEvents, Action.remarks_bind, hvalue, hmemo]
  cases ((context.resolve name).run memo).value with
  | error cause => simp [Except.toOption]
  | ok exception => rfl

theorem addEvents_fates (hmode : context.usesHierarchy = true) (flow : FlowLog)
    (hbefore : before.PartOf memo) {names : List ClassName}
    (hafter : ((flow.addEvents context offset names).run memo).memo.PartOf after)
    (hkept : ∀ name ∈ names, context.MayBeChecked before memo name) :
    ∃ fates, List.Forall₂ (context.Befalls before after offset) names fates ∧
      ((flow.addEvents context offset names).run memo).value =
        flow.addAll (fates.flatMap Fate.events) ∧
      ((flow.addEvents context offset names).run memo).remarks.map Remark.notice =
        fates.flatMap Fate.notices := by
  induction names generalizing flow memo with
  | nil => exact ⟨[], .nil, flow.addAll_nil.symm, rfl⟩
  | cons name names ih =>
      obtain ⟨hfirst, hothers⟩ := List.forall_mem_cons.mp hkept
      obtain ⟨hvalue, hlast⟩ := flow.run_addEvents_cons context offset name names memo
      have hremarks := flow.remarks_addEvents_cons context offset name names memo
      have hgrows := context.partOf_resolve memo name
      rw [hlast] at hafter
      obtain ⟨fate, hfate, hevents, hnotices⟩ := Context.exists_fate hmode hbefore
        ((partOf_addEvents _ context offset names _).trans hafter) hfirst offset
      obtain ⟨fates, hfates, hrest, hsaid⟩ := ih _ (hbefore.trans hgrows)
        hafter fun other hother => (hothers other hother).mono hgrows
      refine ⟨fate :: fates, .cons hfate hfates, ?_, ?_⟩
      · rw [hvalue, hrest, ← hevents, addAll_addAll, List.flatMap_cons]
      · rw [hremarks, List.map_append, ← hnotices, hsaid, List.flatMap_cons]

theorem remarks_recordCall_some (flow : FlowLog) (hmode : context.usesHierarchy = true)
    {target : CallTarget} {dispatch : Dispatch} {callee : Callee}
    (hcallee : context.callee? target dispatch = some callee) (offset : Nat) (memo : Memo) :
    let first := (context.checkedNames callee.method.throwsClause.entries).run memo
    ((flow.recordCall context target dispatch offset).run memo).remarks =
      ((flow.forgetCall.addEvents context offset first.value).run first.memo).remarks := by
  obtain ⟨harray, hresolve⟩ := Context.callee?_eq_some_iff.mp hcallee
  obtain ⟨hclause, hmemo, _⟩ := callee.method.readThrowsClause_yields memo
  obtain ⟨hkept, hlast⟩ := context.run_withoutUnchecked hmode callee.method.throwsClause memo
  unfold recordCall
  simp only [harray, Bool.false_eq_true, if_false, hresolve, addCallee, Action.remarks_bind,
    callee.method.remarks_readThrowsClause, context.remarks_withoutUnchecked, hclause, hmemo,
    hkept, hlast]
  simp [Outcome.remarks]

theorem recordCall_fates (hmode : context.usesHierarchy = true) (flow : FlowLog)
    {target : CallTarget} {dispatch : Dispatch} {callee : Callee}
    (hcallee : context.callee? target dispatch = some callee) (offset : Nat) :
    let outcome := (flow.recordCall context target dispatch offset).run memo
    ∃ fates, List.Forall₂ (context.Befalls memo outcome.memo offset)
        callee.method.throwsClause.entries fates ∧
      outcome.value.events = flow.events ++ fates.flatMap Fate.events ∧
      outcome.remarks.map Remark.notice = fates.flatMap Fate.notices := by
  obtain ⟨hvalue, hlast⟩ := flow.run_recordCall_some hmode hcallee offset memo
  have hremarks := flow.remarks_recordCall_some hmode hcallee offset memo
  have hgrows := context.partOf_checkedNames callee.method.throwsClause.entries memo
  dsimp only
  rw [hvalue, hlast, hremarks]
  obtain ⟨fates, hfates, hevents, hnotices⟩ := addEvents_fates hmode flow.forgetCall hgrows
    (.refl _) fun name => Context.mayBeChecked_of_mem_checkedNames hmode (.refl memo)
  obtain ⟨all, hall, hsame, hsaid⟩ := Context.leaveTraces_of_checkedNames hmode
    (flow.forgetCall.partOf_addEvents context offset _ _) hfates
  refine ⟨all, hall, ?_, ?_⟩
  · rw [hevents, hsame]
    rfl
  · rw [hnotices, hsaid]

theorem recordCall_adds (hmode : context.usesHierarchy = true) (flow : FlowLog)
    (target : CallTarget) (dispatch : Dispatch) (offset : Nat) :
    let outcome := (flow.recordCall context target dispatch offset).run memo
    ∃ events, context.CallAdds memo outcome.memo target dispatch offset events
        (outcome.remarks.map Remark.notice) ∧
      outcome.value.events = flow.events ++ events := by
  cases harray : target.hasArrayOwner with
  | true =>
      have hrun : (flow.recordCall context target dispatch offset).run memo =
          ⟨flow.forgetCall, memo, []⟩ := by
        simp [recordCall, harray]
      rw [hrun]
      exact ⟨[], .array harray, (List.append_nil _).symm⟩
  | false =>
      cases hresolve : Callee.resolve context.source target dispatch with
      | error cause =>
          have hrun : (flow.recordCall context target dispatch offset).run memo =
              ⟨flow.forgetCall, memo, [.log (.unresolvedCall target cause),
                .remark (.ofFailure (.lookingUp target.owner cause) cause)]⟩ := by
            simp [recordCall, harray, hresolve]
          rw [hrun]
          exact ⟨[], .failed harray hresolve (cause.toldAs_ofFailure _),
            (List.append_nil _).symm⟩
      | ok found =>
          cases found with
          | none =>
              have hrun : (flow.recordCall context target dispatch offset).run memo =
                  ⟨flow.forgetCall, memo, [.log (.undeclaredCall target dispatch)]⟩ := by
                simp [recordCall, harray, hresolve]
              rw [hrun]
              exact ⟨[], .unmatched harray hresolve, (List.append_nil _).symm⟩
          | some callee =>
              have hcallee := Context.callee?_eq_some_iff.mpr ⟨harray, hresolve⟩
              obtain ⟨fates, hfates, hevents, hnotices⟩ :=
                recordCall_fates hmode flow hcallee offset
              dsimp only
              rw [hnotices]
              exact ⟨_, .matched harray hresolve hfates, hevents⟩

end FlowLog

namespace Context

variable {context : Context} {before after : Memo} {offset : Nat}

theorem names_sublist_of_fates {names : List ClassName} {fates : List Fate}
    (h : List.Forall₂ (context.Befalls before after offset) names fates) :
    ((fates.flatMap Fate.events).map fun event => event.exception.name).Sublist names := by
  induction h with
  | nil => exact .slnil
  | cons hfate _ ih =>
      cases hfate with
      | recorded hname =>
          subst hname
          exact ih.cons_cons _
      | noticed => exact ih.cons _
      | dropped => exact ih.cons _

/-- A throws clause has every name once, so no name leads to two events. -/
theorem CallAdds.nodup_names {target : CallTarget} {dispatch : Dispatch}
    {events : List ThrowEvent} {notices : List Notice}
    (h : context.CallAdds before after target dispatch offset events notices) :
    (events.map fun event => event.exception.name).Nodup := by
  cases h with
  | @matched callee _ _ _ hfates =>
      exact (names_sublist_of_fates hfates).nodup callee.method.throwsClause.nodup
  | _ => exact List.nodup_nil

end Context

/-- A class whose method declares one exception of every kind. The limit is so low that a runtime
exception is out of reach as long as its superclass is not known. -/
def storeContext : Context :=
  .new { maxDepth := 1 } (Classpath.javaLang.insert
    { name := ⟨"app.Store"⟩
      methods := [{
        name := "load"
        descriptor := "()V"
        exceptions := [.runtimeException, .error, ⟨"app.Gone"⟩, .exception] }] }).lookup
    fun _ => .ok ()

def storeCall : CallTarget :=
  ⟨⟨"app.Store"⟩, "load", "()V"⟩

/-- The root of all exceptions is known, and nothing below it. -/
def storeMemo : Memo :=
  ((storeContext.resolve .throwable).run {}).memo

/-- Nothing is dropped silently at a call. Each name of the throws clause leads to an event at the
call, to a notice or, if it is known to be unchecked, to nothing, in the order of the clause. A call
that cannot be looked up leads to one notice, and one that means no declaration to nothing. What was
there before stays as it was. -/
theorem recordCall_accounts {context : Context} (hmode : context.usesHierarchy = true)
    (memo : Memo) (flow : FlowLog) (target : CallTarget) (dispatch : Dispatch) (offset : Nat)
    (ledger : Ledger) :
    let outcome := (flow.recordCall context target dispatch offset).run memo
    ∃ events notices,
      context.CallAdds memo outcome.memo target dispatch offset events notices ∧
      (events.map fun event => event.exception.name).Nodup ∧
      outcome.value.events = flow.events ++ events ∧
      ledger.recordAll outcome.emitted = { ledger with notices := ledger.notices ++ notices } ∧
      outcome.value.regions = flow.regions ∧ outcome.value.declared = flow.declared := by
  intro outcome
  obtain ⟨events, hadds, hevents⟩ := flow.recordCall_adds hmode target dispatch offset
  obtain ⟨-, hplain, _, -, hnext⟩ :=
    flow.recordCall_plainly context.resolves_named target dispatch offset memo trivial
  have hledger := ledger.recordAll_of_flushes (Outcome.flushes_eq_nil hplain)
  refine ⟨events, _, hadds, hadds.nodup_names, hevents, hledger, ?_⟩
  exact ⟨(congrArg FlowLog.regions hnext :), (congrArg FlowLog.declared hnext :)⟩

/-- The runtime exception is refused at first and recorded all the same, once its superclass has
been resolved. -/
theorem recordCall_accounts_store :
    storeContext.usesHierarchy = true ∧
      let outcome := (({} : FlowLog).recordCall storeContext storeCall .virtual 7).run storeMemo
      outcome.value.events = [
          ⟨.ofAncestors .runtimeException [.exception, .throwable, .object], 7⟩,
          ⟨.ofAncestors .exception [.throwable, .object], 7⟩] ∧
        storeContext.CallAdds storeMemo outcome.memo storeCall .virtual 7 outcome.value.events
          [.missingType ⟨"app.Gone"⟩] := by
  have hmode : storeContext.usesHierarchy = true := rfl
  obtain ⟨events, notices, hadds, -, hevents, hledger, -⟩ :=
    recordCall_accounts hmode storeMemo {} storeCall .virtual 7 {}
  have hnotices : [Notice.missingType ⟨"app.Gone"⟩] = notices := congrArg Ledger.notices hledger
  refine ⟨hmode, by decide, ?_⟩
  rw [hevents, hnotices]
  exact hadds

end ExceptionFlow
