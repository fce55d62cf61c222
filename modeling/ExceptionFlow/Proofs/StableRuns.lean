import ExceptionFlow.Proofs.Findings
import Mathlib.Data.List.Basic
/-!
Runs whose findings do not hang on the memo. If every class that can be thrown and not covered
resolves afresh, a method reports exactly what escapes from its code, and a program reports what its
methods report.
-/
namespace ExceptionFlow

variable {context : Context}

namespace Context

/-- No class except the root of all throwables has more superclasses than the limit allows. -/
def WithinLimit (context : Context) : Prop :=
  ∀ name above, Ascent context.source name above → name ≠ .throwable →
    above.length ≤ context.config.maxDepth

/-- The memo makes no difference: no superclasses are looked at, no class with a superclass
resolves, no class is there to be called or thrown, or all classes lie within the limit. -/
def Stable (context : Context) : Prop :=
  context.config.strategy = .textual ∨ context.config.maxDepth = 0 ∨
    (¬ ∃ target, context.HasOwner target) ∨ context.WithinLimit

end Context

theorem Callee.exists_class_of_resolve {source : ClassSource} {target : CallTarget}
    {dispatch : Dispatch} {callee : Callee}
    (h : Callee.resolve source target dispatch = .ok (some callee)) :
    ∃ cls, source target.owner = .ok cls := by
  cases hsource : source target.owner with
  | ok cls => exact ⟨cls, rfl⟩
  | error failure =>
      have hclimb : ∀ declared?, climb source declared? searchLimit target.owner =
          .error failure := by
        intro declared?
        simp [searchLimit, climb, hsource, bind, Except.bind]
      have hspread : ∀ declared?, spread source declared? searchLimit [] [target.owner] =
          .error failure := by
        intro declared?
        unfold searchLimit spread
        simp [hsource, bind, Except.bind]
      cases dispatch <;> simp [resolve, hclimb, hspread, bind, Except.bind] at h

namespace Context.Raises

variable {call : Option (ClassName × String)} {instruction : Instruction}
  {events : List ThrowEvent}

theorem exists_hasOwner (hmode : context.usesHierarchy = true)
    (h : context.Raises call instruction events) {event : ThrowEvent} (hevent : event ∈ events) :
    ∃ target, context.HasOwner target := by
  obtain ⟨above, habove, hancestors, _⟩ := (h.admitted event hevent).ascent hmode
  have horigin := h.origin hmode hevent hancestors
  generalize instruction.kind = kind at horigin
  cases horigin with
  | thrown _ hthrowable _ _ =>
      exact ⟨⟨.throwable, "", ""⟩, by decide, habove.exists_class_of_mem hthrowable⟩
  | @declared target _ _ harray hcallee _ =>
      exact ⟨target, harray, Callee.exists_class_of_resolve hcallee⟩

theorem freshLineage?_eq (hstable : context.Stable) (h : context.Raises call instruction events)
    {event : ThrowEvent} (hevent : event ∈ events) (hname : event.exception.name ≠ .throwable) :
    context.freshLineage? event.exception.name = some event.exception := by
  have hadmits := h.admitted event hevent
  cases hmode : context.usesHierarchy with
  | false =>
      rw [freshLineage?_textual hmode]
      exact congrArg some (Admits.unique (.textual hmode _) hadmits rfl)
  | true =>
      obtain ⟨above, habove, hancestors, hdepth⟩ := hadmits.ascent hmode
      have hlength : above.length ≤ context.config.maxDepth := by
        rcases hstable with htextual | hzero | howner | hlimit
        · simp [usesHierarchy, htextual] at hmode
        · rcases hdepth with rfl | hpos
          · exact Nat.zero_le _
          · omega
        · exact absurd (h.exists_hasOwner hmode hevent) howner
        · exact hlimit _ above habove hname
      rw [freshLineage?_eq_some_iff hmode]
      exact ⟨above, habove, hlength, Lineage.eq_ofAncestors hancestors⟩

theorem uncovered_eq_escapesAt (hstable : context.Stable) {before : List Instruction}
    (h : context.Raises (context.callBefore before) instruction events) (body : MethodBody) :
    FlowLog.uncovered body events = context.escapesAt body before instruction := by
  refine List.Sublist.antisymm ?_ (h.escapesAt_sublist body)
  refine h.uncovered_sublist body (List.Sublist.refl _) ?_
  -- what is not covered is of a specific class, so it resolves afresh and counts
  intro event hevent huncovered
  have hname := ((body.covers_eq_false_iff _ _).mp huncovered).2.1
  have hfresh := h.freshLineage?_eq hstable hevent hname
  have hcounts := h.fresh event hevent _ hfresh
  rw [h.offset event hevent] at huncovered
  rw [escapes, surely_eq_of_fresh hfresh, hcounts, huncovered]
  rfl

end Context.Raises

theorem Context.Records.uncovered_eq_escapesFrom (hstable : context.Stable)
    {before code : List Instruction} {events : List ThrowEvent}
    (h : context.Records context.Raises (context.callBefore before) code events)
    (body : MethodBody) :
    FlowLog.uncovered body events = context.escapesFrom body before code := by
  induction code generalizing before events with
  | nil =>
      cases h with
      | nil => rfl
  | cons instruction code ih =>
      cases h with
      | cons hraised hrest =>
          rw [← context.callBefore_append before instruction] at hrest
          rw [FlowLog.uncovered_append, hraised.uncovered_eq_escapesAt hstable body, ih hrest]
          rfl

namespace Context

def escapeBatch (context : Context) (body : MethodBody) : Batch :=
  .ofBody body
    ((context.escapesFrom body [] body.code).map fun escape => .ofBody body escape.1 escape.2)

/-- The answer of a method and the batches it hands over, without a memo. -/
def report (context : Context) (body : MethodBody) : Except Failure Nat × List Batch :=
  if body.method.hasCode then
    match body.stray? with
    | some stray => (.error (body.outside stray), [])
    | none => ((context.accept (context.escapeBatch body)).map fun _ =>
        (context.escapeBatch body).size, [context.escapeBatch body])
  else (.ok 0, [])

theorem report_of_not_hasCode {body : MethodBody} (hcode : body.method.hasCode = false) :
    context.report body = (.ok 0, []) := by
  simp [report, hcode]

theorem length_findings_report {body : MethodBody} {count : Nat} {batches : List Batch}
    (h : context.report body = (.ok count, batches)) :
    (batches.flatMap Batch.findings).length = count := by
  unfold report at h
  split at h
  · split at h
    · cases h
    · cases haccept : context.accept (context.escapeBatch body) with
      | error failure =>
          rw [haccept] at h
          cases h
      | ok taken =>
          rw [haccept] at h
          cases h
          simp [Batch.size]
  · cases h
    rfl

end Context

namespace Detector

theorem Ran.report (hstable : context.Stable) {body : MethodBody}
    (hcode : body.method.hasCode = true) {reply : Reply Nat} {flushes : List Flush}
    (h : Ran context context.Raises body reply flushes) :
    (reply.result, flushes.map Prod.fst) = context.report body := by
  unfold Context.report
  rw [if_pos hcode]
  cases h with
  | stray hstray hreply hflushes =>
      rw [hstray, hreply, hflushes]
      rfl
  | @done flow hstray hframes hrecords hreply hflushes =>
      have hstart : context.Records context.Raises (context.callBefore []) body.code
        flow.events := hrecords
      have hbatch : flow.batch body = context.escapeBatch body := by
        rw [FlowLog.batch_eq hframes, hstart.uncovered_eq_escapesFrom hstable body]
        rfl
      rw [hstray, hreply, hflushes, hbatch]
      rfl

/-- In a stable context a method reports what escapes from it, and the detector is empty again. -/
theorem runMethod_report (hstable : context.Stable) (body : MethodBody) :
    (({} : Detector).runMethod context body).Ensures (Memo.Reachable context) fun reply flushes =>
      reply.detector = {} ∧ (reply.result, flushes.map Prod.fst) = context.report body := by
  cases hcode : body.method.hasCode with
  | false =>
      rw [Context.report_of_not_hasCode hcode]
      exact (runMethod_noCode {} context hcode).ensures ⟨rfl, rfl⟩
  | true =>
      exact (runMethod_ensures context body hcode).mono fun _ _ hran =>
        ⟨hran.detector_eq, hran.report hstable hcode⟩

end Detector

@[simp]
theorem Tally.methods_add (first second : Tally) :
    (first + second).methods = first.methods + second.methods :=
  rfl

@[simp]
theorem Tally.findings_add (first second : Tally) :
    (first + second).findings = first.findings + second.findings :=
  rfl

namespace Context

def tallyOf (context : Context) (tally : Tally) (bodies : List MethodBody) : Tally :=
  { methods := tally.methods + bodies.countP fun body => body.method.hasCode
    findings := tally.findings +
      ((bodies.flatMap fun body => (context.report body).2).flatMap Batch.findings).length }

/-- How methods that are run one after another are accounted for. If all of them pass, the result is
their tally and the batches are those of the methods in order; else the result is a failure. -/
structure Accounts (context : Context) (tally : Tally) (bodies : List MethodBody)
    (result : Except Failure Tally) (batches : List Batch) : Prop where
  complete : (∀ body ∈ bodies, ∃ count, (context.report body).1 = .ok count) →
    result = .ok (context.tallyOf tally bodies) ∧
      batches = bodies.flatMap fun body => (context.report body).2
  passed : ∀ total, result = .ok total →
    ∀ body ∈ bodies, ∃ count, (context.report body).1 = .ok count

namespace Accounts

variable {tally found : Tally} {first rest : List MethodBody} {result : Except Failure Tally}
  {batches more : List Batch}

theorem nil : context.Accounts tally [] (.ok tally) [] where
  complete _ := ⟨rfl, rfl⟩
  passed _ _ := by simp

theorem fail {failure : Failure} (h : context.Accounts found first (.error failure) batches)
    (tally : Tally) (rest : List MethodBody) :
    context.Accounts tally (first ++ rest) (.error failure) batches where
  complete hall := by
    cases (h.complete fun body hbody => hall body (List.mem_append_left rest hbody)).1
  passed total htotal := by cases htotal

theorem append (h : context.Accounts {} first (.ok found) batches)
    (hrest : context.Accounts (tally + found) rest result more) :
    context.Accounts tally (first ++ rest) result (batches ++ more) where
  complete hall := by
    obtain ⟨hfirst, hlast⟩ := List.forall_mem_append.mp hall
    obtain ⟨hfound, hbatches⟩ := h.complete hfirst
    obtain ⟨hresult, hmore⟩ := hrest.complete hlast
    obtain rfl := Except.ok.inj hfound
    refine ⟨?_, ?_⟩
    · rw [hresult]
      simp [tallyOf, Nat.add_assoc]
    · rw [hbatches, hmore, List.flatMap_append]
  passed total htotal :=
    List.forall_mem_append.mpr ⟨h.passed found rfl, hrest.passed total htotal⟩

theorem skip {body : MethodBody} (hcode : body.method.hasCode = false) :
    context.Accounts {} [body] (.ok {}) [] where
  complete _ := by simp [tallyOf, hcode, report_of_not_hasCode hcode]
  passed _ _ := by simp [report_of_not_hasCode hcode]

theorem singleton {body : MethodBody} (hcode : body.method.hasCode = true)
    {counted : Except Failure Nat} (h : (counted, batches) = context.report body) :
    context.Accounts {} [body] (counted.map fun findings => { methods := 1, findings })
      batches where
  complete hall := by
    obtain ⟨count, hcount⟩ := hall body (List.mem_singleton_self body)
    rw [← h] at hcount
    obtain rfl : counted = .ok count := hcount
    have hsize := length_findings_report h.symm
    refine ⟨?_, ?_⟩
    · simp [tallyOf, hcode, ← h, hsize, Except.map]
    · simp [← h]
  passed total htotal := by
    intro other hother
    obtain rfl := List.mem_singleton.mp hother
    rw [← h]
    cases counted with
    | error failure => cases htotal
    | ok count => exact ⟨count, rfl⟩

/-- The order of the methods matters to neither the result nor, as a whole, the batches. -/
theorem perm {bodies others : List MethodBody} {total : Tally}
    (h : context.Accounts tally bodies (.ok total) batches)
    (hother : context.Accounts tally others result more) (hperm : bodies.Perm others) :
    result = .ok total ∧ batches.Perm more := by
  have hall := h.passed total rfl
  obtain ⟨htotal, hbatches⟩ := h.complete hall
  obtain ⟨hresult, hmore⟩ := hother.complete fun body hbody => hall body (hperm.mem_iff.mpr hbody)
  have hflat : (bodies.flatMap fun body => (context.report body).2).Perm
      (others.flatMap fun body => (context.report body).2) :=
    hperm.flatMap_right _
  have htally : context.tallyOf tally bodies = context.tallyOf tally others := by
    unfold tallyOf
    rw [hperm.countP_eq, (hflat.flatMap_right Batch.findings).length_eq]
  refine ⟨?_, ?_⟩
  · rw [hresult, htotal, htally]
  · rw [hbatches, hmore]
    exact hflat

end Accounts

end Context

namespace Detector

theorem HandedAll.accounts (hstable : context.Stable) {detector : Detector} {tally : Tally}
    {bodies : List MethodBody} {reply : Reply Tally} {flushes : List Flush}
    (h : HandedAll context (context.Raised context.Answers) detector tally bodies reply flushes)
    (hdetector : detector = {}) :
    context.Accounts tally bodies reply.result (flushes.map Prod.fst) := by
  have hreport : ∀ {body : MethodBody} {reply : Reply Nat} {flushes : List Flush},
      body.method.hasCode = true →
      Handed context (context.Raised context.Answers) {} body reply flushes →
      (reply.result, flushes.map Prod.fst) = context.report body := by
    intro body reply flushes hcode hbody
    exact (hbody.ran_of_new.mono fun _ _ _ hraised => hraised.raises).report hstable hcode
  induction h with
  | nil => exact .nil
  | skip hcode _ ih => exact (Context.Accounts.skip hcode).append (ih hdetector)
  | failed hcode hbody hresult =>
      subst hdetector
      have hfirst := Context.Accounts.singleton hcode (hreport hcode hbody)
      rw [hresult] at hfirst
      exact hfirst.fail _ _
  | passed hcode hbody hresult _ ih =>
      subst hdetector
      have hfirst := Context.Accounts.singleton hcode (hreport hcode hbody)
      rw [hresult] at hfirst
      rw [List.map_append]
      exact hfirst.append (ih rfl)

theorem runMethods_accounts (hstable : context.Stable) (tally : Tally) (bodies : List MethodBody) :
    (({} : Detector).runMethods context tally bodies).Ensures (Memo.Reachable context)
      fun reply flushes => reply.detector = {} ∧
        context.Accounts tally bodies reply.result (flushes.map Prod.fst) :=
  (runMethods_handedAll context.resolves_reachable .idle tally bodies).mono fun _ _ hmethods =>
    ⟨hmethods.detector_eq.elim id id, hmethods.accounts hstable rfl⟩

theorem runClasses_accounts (hstable : context.Stable) (tally : Tally) (classes : List ClassBody) :
    (({} : Detector).runClasses context tally classes).Ensures (Memo.Reachable context)
      fun reply flushes => context.Accounts tally (classes.flatMap ClassBody.methods) reply.result
        (flushes.map Prod.fst) := by
  induction classes generalizing tally with
  | nil => exact Action.Ensures.pure .nil
  | cons cls classes ih =>
      unfold runClasses runClass
      refine Action.Ensures.bind (runMethods_accounts hstable {} cls.methods) ?_
      rintro ⟨result, detector⟩ flushes ⟨hempty, hmethods⟩
      obtain rfl : detector = {} := hempty
      cases result with
      | error failure =>
          refine Action.Ensures.pure ?_
          rw [List.append_nil]
          exact hmethods.fail tally _
      | ok found =>
          refine (ih (tally + found)).mono ?_
          intro reply more hrest
          rw [List.map_append]
          exact hmethods.append hrest

end Detector

theorem analyze_accounts (hstable : context.Stable) (classes : List ClassBody) :
    (analyze context classes).Ensures (Memo.Reachable context) fun result flushes =>
      context.Accounts {} (classes.flatMap ClassBody.methods) result (flushes.map Prod.fst) := by
  unfold analyze
  refine Action.Ensures.bind (Detector.runClasses_accounts hstable {} classes) ?_
  rintro ⟨result, detector⟩ flushes haccounts
  cases result with
  | error failure =>
      refine Action.Ensures.pure ?_
      rw [List.append_nil]
      exact haccounts
  | ok tally =>
      refine Action.Ensures.afterLog (Action.Ensures.pure ?_)
      rw [List.append_nil]
      exact haccounts

end ExceptionFlow
