import ExceptionFlow.Proofs.Handover
import Mathlib.Data.List.Forall2
/-!
The books of a program run. A detector that has run a method is as good as a new one, so a program
comes to the same as its methods with code one by one, each run by a new detector from the memo that
those before it left. The tally then counts these methods and the findings that a ledger has gained;
a failure is that of the first method that fails, and the ledger has what the methods before it
reported.
-/
namespace ExceptionFlow

theorem Tally.add_assoc (first second third : Tally) :
    first + second + third = first + (second + third) :=
  congrArg₂ Tally.mk (Nat.add_assoc _ _ _) (Nat.add_assoc _ _ _)

namespace Action

variable {α β γ : Type}

/-- Goes on with the value of an action that did not fail. -/
def andThen (action : Action (Except Failure α)) (next : α → Action (Except Failure β)) :
    Action (Except Failure β) := do
  match ← action with
  | .error failure => return .error failure
  | .ok value => next value

theorem andThen_assoc (action : Action (Except Failure α)) (next : α → Action (Except Failure β))
    (last : β → Action (Except Failure γ)) :
    (action.andThen next).andThen last = action.andThen fun value => (next value).andThen last := by
  unfold andThen
  rw [bind_assoc]
  refine bind_congr fun result => ?_
  cases result <;> rfl

theorem run_andThen_error {action : Action (Except Failure α)} {memo : Memo} {failure : Failure}
    (h : (action.run memo).value = .error failure) (next : α → Action (Except Failure β)) :
    ((action.andThen next).run memo).value = .error failure ∧
      ((action.andThen next).run memo).emitted = (action.run memo).emitted := by
  unfold andThen
  rw [run_bind, h]
  exact ⟨rfl, List.append_nil _⟩

theorem run_andThen_ok {action : Action (Except Failure α)} {memo : Memo} {value : α}
    (h : (action.run memo).value = .ok value) (next : α → Action (Except Failure β)) :
    ((action.andThen next).run memo).value =
        ((next value).run (action.run memo).memo).value ∧
      ((action.andThen next).run memo).emitted =
        (action.run memo).emitted ++ ((next value).run (action.run memo).memo).emitted := by
  unfold andThen
  rw [run_bind, h]
  exact ⟨rfl, rfl⟩

end Action

/-- The result with a detector that is new again. -/
def Reply.idle {α : Type} (result : Except Failure α) : Reply α :=
  { result, detector := {} }

/-- The methods with code, class by class. -/
def methodsWithCode (classes : List ClassBody) : List MethodBody :=
  (classes.flatMap ClassBody.methods).filter fun body => body.method.hasCode

/-- A method with a detector of its own. -/
def runAlone (context : Context) (body : MethodBody) : Action (Except Failure Nat) :=
  Reply.result <$> ({} : Detector).runMethod context body

theorem runAlone_reported (context : Context) {body : MethodBody}
    (hcode : body.method.hasCode = true) :
    (runAlone context body).Always (Detector.Reported context body) := by
  rw [runAlone, map_eq_pure_bind]
  exact (Detector.runMethod_reported context hcode).map fun _ _ hreply => hreply.2

/-- Methods one by one, each with a detector of its own, up to the first that fails. -/
def runSingly (context : Context) (tally : Tally) :
    List MethodBody → Action (Except Failure Tally)
  | [] => return .ok tally
  | body :: bodies =>
    (runAlone context body).andThen fun findings =>
      runSingly context (tally + { methods := 1, findings }) bodies

theorem runSingly_append (context : Context) (tally start : Tally) (first rest : List MethodBody) :
    runSingly context (tally + start) (first ++ rest) =
      (runSingly context start first).andThen fun found =>
        runSingly context (tally + found) rest := by
  induction first generalizing start with
  | nil => rfl
  | cons body bodies ih =>
      have hrest : ∀ findings,
          runSingly context (tally + start + { methods := 1, findings }) (bodies ++ rest) =
            (runSingly context (start + { methods := 1, findings }) bodies).andThen fun found =>
              runSingly context (tally + found) rest := by
        intro findings
        rw [Tally.add_assoc, ih]
      simp only [List.cons_append, runSingly, Action.andThen_assoc, hrest]

theorem runSingly_append_empty (context : Context) (tally : Tally) (first rest : List MethodBody) :
    runSingly context tally (first ++ rest) =
      (runSingly context {} first).andThen fun found =>
        runSingly context (tally + found) rest :=
  runSingly_append context tally {} first rest

namespace Detector

theorem runMethods_eq (context : Context) (tally : Tally) (bodies : List MethodBody) :
    ({} : Detector).runMethods context tally bodies =
      Reply.idle <$> runSingly context tally (bodies.filter fun body => body.method.hasCode) := by
  induction bodies generalizing tally with
  | nil => rfl
  | cons body bodies ih =>
      unfold runMethods
      cases hcode : body.method.hasCode with
      | false =>
          rw [List.filter_cons_of_neg (by simp [hcode])]
          exact ih tally
      | true =>
          rw [List.filter_cons_of_pos (by simp [hcode]), if_pos rfl, runSingly, Action.andThen,
            runAlone, bind_map_left, map_bind]
          refine Action.bind_congr_of_always
            ((runMethod_reported context hcode).mono fun _ _ hreply => hreply.1) ?_
          rintro ⟨result, _⟩ rfl
          cases result with
          | error failure => rfl
          | ok findings => exact ih _

theorem runClasses_eq (context : Context) (tally : Tally) (classes : List ClassBody) :
    ({} : Detector).runClasses context tally classes =
      Reply.idle <$> runSingly context tally (methodsWithCode classes) := by
  induction classes generalizing tally with
  | nil => rfl
  | cons cls classes ih =>
      have hmethods : methodsWithCode (cls :: classes) =
          (cls.methods.filter fun body => body.method.hasCode) ++ methodsWithCode classes := by
        unfold methodsWithCode
        rw [List.flatMap_cons, List.filter_append]
      unfold runClasses runClass
      rw [hmethods, runSingly_append_empty, runMethods_eq, Action.andThen, bind_map_left, map_bind]
      refine bind_congr fun result => ?_
      cases result with
      | error failure => rfl
      | ok found => exact ih _

end Detector

/-- The end of a run: all methods passed. -/
def logProgram (classes : List ClassBody) (tally : Tally) : Action (Except Failure Tally) := do
  Action.log (.programDone tally.methods classes.length tally.findings)
  return .ok tally

theorem analyze_eq (context : Context) (classes : List ClassBody) :
    analyze context classes =
      (runSingly context {} (methodsWithCode classes)).andThen (logProgram classes) := by
  unfold analyze Action.andThen
  rw [Detector.runClasses_eq, bind_map_left]
  refine bind_congr fun result => ?_
  cases result <;> rfl

/-- Chunks of classes one after another, each with a detector of its own, up to the first that
fails. -/
def runChunks (context : Context) (tally : Tally) :
    List (List ClassBody) → Action (Except Failure Tally)
  | [] => return .ok tally
  | chunk :: chunks =>
    (Reply.result <$> ({} : Detector).runClasses context {} chunk).andThen fun found =>
      runChunks context (tally + found) chunks

/-- Analyses all classes of a program, chunk by chunk. -/
def analyzeInChunks (context : Context) (chunks : List (List ClassBody)) :
    Action (Except Failure Tally) :=
  (runChunks context {} chunks).andThen (logProgram chunks.flatten)

theorem runChunks_eq (context : Context) (tally : Tally) (chunks : List (List ClassBody)) :
    runChunks context tally chunks = runSingly context tally (methodsWithCode chunks.flatten) := by
  induction chunks generalizing tally with
  | nil => rfl
  | cons chunk chunks ih =>
      have hmethods : methodsWithCode (chunk :: chunks).flatten =
          methodsWithCode chunk ++ methodsWithCode chunks.flatten := by
        unfold methodsWithCode
        rw [List.flatten_cons, List.flatMap_append, List.filter_append]
      have hchunk : Reply.result <$> ({} : Detector).runClasses context {} chunk =
          runSingly context {} (methodsWithCode chunk) := by
        rw [Detector.runClasses_eq, Functor.map_map]
        exact id_map _
      rw [hmethods, runSingly_append_empty, runChunks, hchunk]
      simp only [ih]

theorem analyzeInChunks_eq (context : Context) (chunks : List (List ClassBody)) :
    analyzeInChunks context chunks = analyze context chunks.flatten := by
  rw [analyzeInChunks, runChunks_eq, analyze_eq]

/-- The outcomes of methods, each run by a new detector from the memo that those before it left. -/
def Context.outcomes (context : Context) :
    List MethodBody → Memo → List (Outcome (Except Failure Nat))
  | [], _ => []
  | body :: bodies, memo =>
    (runAlone context body).run memo ::
      context.outcomes bodies ((runAlone context body).run memo).memo

/-- How a run of methods goes on from outcome to outcome: a method that passes has its one batch
taken, and one that fails leaves nothing. -/
inductive Booked : List (Outcome (Except Failure Nat)) → Tally → Except Failure Tally →
    List Emission → Prop where
  | nil {tally : Tally} : Booked [] tally (.ok tally) []
  | failed {outcome : Outcome (Except Failure Nat)}
      {later : List (Outcome (Except Failure Nat))} {tally : Tally} {failure : Failure}
      (hresult : outcome.value = .error failure)
      (hkept : Ledger.kept outcome.emitted = []) :
      Booked (outcome :: later) tally (.error failure) outcome.emitted
  | passed {outcome : Outcome (Except Failure Nat)}
      {later : List (Outcome (Except Failure Nat))} {tally : Tally} {batch : Batch}
      {result : Except Failure Tally} {emitted : List Emission}
      (hresult : outcome.value = .ok batch.size)
      (hflushes : outcome.flushes = [(batch, .ok ())])
      (hrest : Booked later (tally + { methods := 1, findings := batch.size }) result emitted) :
      Booked (outcome :: later) tally result (outcome.emitted ++ emitted)

/-- The reports with findings, in order. -/
def reportsOf (outcomes : List (Outcome (Except Failure Nat))) : List Batch :=
  (outcomes.flatMap Outcome.batches).filter fun batch => !batch.isEmpty

theorem Context.outcomes_reported (context : Context) {bodies : List MethodBody}
    (hcode : ∀ body ∈ bodies, body.method.hasCode = true) (memo : Memo) :
    List.Forall₂ (fun body outcome => Detector.Reported context body outcome.value outcome.flushes)
      bodies (context.outcomes bodies memo) := by
  induction bodies generalizing memo with
  | nil => exact .nil
  | cons body bodies ih =>
      obtain ⟨hbody, hrest⟩ := List.forall_mem_cons.mp hcode
      exact .cons (runAlone_reported context hbody memo trivial).2 (ih hrest _)

namespace Detector.Reported

variable {context : Context} {body : MethodBody} {flushes : List Flush}

theorem of_ok {findings : Nat} (h : Reported context body (.ok findings) flushes) :
    ∃ batch, findings = batch.size ∧ flushes = [(batch, .ok ())] := by
  generalize hresult : Except.ok findings = result at h
  cases h with
  | stray => cases hresult
  | @done batch =>
      cases haccept : context.accept batch with
      | error failure =>
          rw [haccept] at hresult
          cases hresult
      | ok taken =>
          rw [haccept] at hresult
          exact ⟨batch, Except.ok.inj hresult, rfl⟩

theorem of_error {failure : Failure} (h : Reported context body (.error failure) flushes) :
    flushes.filter Ledger.keeps = [] := by
  generalize hresult : (Except.error failure : Except Failure Nat) = result at h
  cases h with
  | stray => rfl
  | @done batch =>
      cases haccept : context.accept batch with
      | error cause => rfl
      | ok taken =>
          rw [haccept] at hresult
          cases hresult

end Detector.Reported

theorem runSingly_booked (context : Context) {bodies : List MethodBody}
    (hcode : ∀ body ∈ bodies, body.method.hasCode = true) (tally : Tally) (memo : Memo) :
    Booked (context.outcomes bodies memo) tally ((runSingly context tally bodies).run memo).value
      ((runSingly context tally bodies).run memo).emitted := by
  induction bodies generalizing tally memo with
  | nil => exact .nil
  | cons body bodies ih =>
      obtain ⟨hbody, hrest⟩ := List.forall_mem_cons.mp hcode
      have hreported := (runAlone_reported context hbody memo trivial).2
      unfold runSingly Context.outcomes
      cases hresult : ((runAlone context body).run memo).value with
      | error failure =>
          rw [hresult] at hreported
          obtain ⟨hvalue, hemitted⟩ := Action.run_andThen_error hresult
            fun findings => runSingly context (tally + { methods := 1, findings }) bodies
          rw [hvalue, hemitted]
          exact .failed hresult (congrArg _ hreported.of_error)
      | ok findings =>
          rw [hresult] at hreported
          obtain ⟨batch, rfl, hflushes⟩ := hreported.of_ok
          obtain ⟨hvalue, hemitted⟩ := Action.run_andThen_ok hresult
            fun findings => runSingly context (tally + { methods := 1, findings }) bodies
          rw [hvalue, hemitted]
          exact .passed hresult hflushes (ih hrest _ _)

namespace Booked

variable {outcomes : List (Outcome (Except Failure Nat))} {tally : Tally} {emitted : List Emission}

theorem kept_of_flushes {outcome : Outcome (Except Failure Nat)} {batch : Batch}
    (h : outcome.flushes = [(batch, .ok ())]) :
    Ledger.kept outcome.emitted = [batch].filter fun batch => !batch.isEmpty := by
  unfold Ledger.kept
  rw [← Outcome.flushes, h]
  cases hempty : batch.isEmpty <;> simp [Ledger.keeps, Except.isOk, Except.toBool, hempty]

theorem length_findings_kept (batch : Batch) :
    (([batch].filter fun batch => !batch.isEmpty).flatMap Batch.findings).length = batch.size := by
  cases hempty : batch.isEmpty with
  | false => simp [hempty, Batch.size]
  | true =>
      have hnone : batch.findings = [] := List.isEmpty_iff.mp hempty
      simp [hempty, Batch.size, hnone]

theorem reportsOf_cons {outcome : Outcome (Except Failure Nat)} {batch : Batch}
    (h : outcome.flushes = [(batch, .ok ())]) (later : List (Outcome (Except Failure Nat))) :
    reportsOf (outcome :: later) = Ledger.kept outcome.emitted ++ reportsOf later := by
  have hbatches : outcome.batches = [batch] := by rw [← outcome.map_flushes, h]; rfl
  unfold reportsOf
  rw [List.flatMap_cons, List.filter_append, hbatches, kept_of_flushes h]

/-- If all methods pass, they are counted with their findings, and all reports with findings are
kept. -/
theorem of_ok {total : Tally} (h : Booked outcomes tally (.ok total) emitted) :
    (∀ outcome ∈ outcomes, ∃ count, outcome.value = .ok count) ∧
      total.methods = tally.methods + outcomes.length ∧
      total.findings = tally.findings + ((Ledger.kept emitted).flatMap Batch.findings).length ∧
      Ledger.kept emitted = reportsOf outcomes := by
  generalize hresult : Except.ok total = result at h
  induction h with
  | nil =>
      obtain rfl := Except.ok.inj hresult
      exact ⟨by simp, rfl, rfl, rfl⟩
  | failed => cases hresult
  | @passed outcome later tally batch result emitted hvalue hflushes _ ih =>
      obtain ⟨hall, hmethods, hfindings, hkept⟩ := ih hresult
      have hsize : ((Ledger.kept outcome.emitted).flatMap Batch.findings).length = batch.size := by
        rw [kept_of_flushes hflushes, length_findings_kept]
      replace hmethods : total.methods = tally.methods + 1 + later.length := hmethods
      replace hfindings : total.findings = tally.findings + batch.size +
        ((Ledger.kept emitted).flatMap Batch.findings).length := hfindings
      refine ⟨List.forall_mem_cons.mpr ⟨⟨batch.size, hvalue⟩, hall⟩, ?_, ?_, ?_⟩
      · rw [hmethods, List.length_cons]
        omega
      · rw [hfindings, Ledger.kept_append, List.flatMap_append, List.length_append, hsize]
        omega
      · rw [Ledger.kept_append, hkept, reportsOf_cons hflushes]

/-- A failure is that of the first method that fails, and the reports with findings that are kept
are those of the methods before it. -/
theorem of_error {failure : Failure} (h : Booked outcomes tally (.error failure) emitted) :
    ∃ before failing after, outcomes = before ++ failing :: after ∧
      (∀ outcome ∈ before, ∃ count, outcome.value = .ok count) ∧
      failing.value = .error failure ∧ Ledger.kept emitted = reportsOf before := by
  generalize hresult : (Except.error failure : Except Failure Tally) = result at h
  induction h with
  | nil => cases hresult
  | @failed outcome later tally cause hvalue hkept =>
      obtain rfl := Except.error.inj hresult
      exact ⟨[], outcome, later, rfl, by simp, hvalue, hkept⟩
  | @passed outcome later tally batch result emitted hvalue hflushes _ ih =>
      obtain ⟨before, failing, after, hlater, hall, hfailing, hkept⟩ := ih hresult
      refine ⟨outcome :: before, failing, after, ?_, ?_, hfailing, ?_⟩
      · rw [hlater, List.cons_append]
      · exact List.forall_mem_cons.mpr ⟨⟨batch.size, hvalue⟩, hall⟩
      · rw [Ledger.kept_append, hkept, reportsOf_cons hflushes]

end Booked

/-- A program has the result of its methods, and the same is kept: the last log record does not
count. -/
theorem analyze_run (context : Context) (classes : List ClassBody) (memo : Memo) :
    ((analyze context classes).run memo).value =
        ((runSingly context {} (methodsWithCode classes)).run memo).value ∧
      Ledger.kept ((analyze context classes).run memo).emitted =
        Ledger.kept ((runSingly context {} (methodsWithCode classes)).run memo).emitted := by
  rw [analyze_eq]
  cases hresult : ((runSingly context {} (methodsWithCode classes)).run memo).value with
  | error failure =>
      obtain ⟨hvalue, hemitted⟩ := Action.run_andThen_error hresult (logProgram classes)
      exact ⟨hvalue, congrArg Ledger.kept hemitted⟩
  | ok tally =>
      obtain ⟨hvalue, hemitted⟩ := Action.run_andThen_ok hresult (logProgram classes)
      refine ⟨hvalue, ?_⟩
      rw [hemitted, Ledger.kept_append]
      exact List.append_nil _

/-- The books of a program run balance. If it succeeds, all methods with code pass; they are
counted, the findings are as many as the ledger has gained, and the batches gained are the reports
with findings, class by class and method by method. If it fails, it fails as the first method that
fails does, and the batches gained are those of the methods before it. Chunks of classes with a
detector each make no difference. -/
theorem analyze_accounted (context : Context) (classes : List ClassBody) (memo : Memo)
    (ledger : Ledger) :
    List.Forall₂ (fun body outcome => Detector.Reported context body outcome.value outcome.flushes)
      (methodsWithCode classes) (context.outcomes (methodsWithCode classes) memo) ∧
    (∀ summary, ((analyze context classes).run memo).value = .ok summary →
      (∀ outcome ∈ context.outcomes (methodsWithCode classes) memo,
        ∃ count, outcome.value = .ok count) ∧
      summary.methods =
        (classes.flatMap ClassBody.methods).countP (fun body => body.method.hasCode) ∧
      (ledger.recordAll ((analyze context classes).run memo).emitted).findings.length =
        ledger.findings.length + summary.findings ∧
      (ledger.recordAll ((analyze context classes).run memo).emitted).batches =
        ledger.batches ++ reportsOf (context.outcomes (methodsWithCode classes) memo)) ∧
    (∀ failure, ((analyze context classes).run memo).value = .error failure →
      ∃ before failing after,
        context.outcomes (methodsWithCode classes) memo = before ++ failing :: after ∧
        (∀ outcome ∈ before, ∃ count, outcome.value = .ok count) ∧
        failing.value = .error failure ∧
        (ledger.recordAll ((analyze context classes).run memo).emitted).batches =
          ledger.batches ++ reportsOf before) ∧
    ∀ chunks : List (List ClassBody), chunks.flatten = classes →
      analyzeInChunks context chunks = analyze context classes := by
  have hcode : ∀ body ∈ methodsWithCode classes, body.method.hasCode = true :=
    fun _ hbody => (List.mem_filter.mp hbody).2
  have hreported := context.outcomes_reported hcode memo
  have hbooked := runSingly_booked context hcode {} memo
  obtain ⟨hvalue, hkept⟩ := analyze_run context classes memo
  rw [← hvalue] at hbooked
  refine ⟨hreported, ?_, ?_, ?_⟩
  · intro summary hsummary
    rw [hsummary] at hbooked
    obtain ⟨hall, hmethods, hfindings, hreports⟩ := hbooked.of_ok
    refine ⟨hall, ?_, ?_, ?_⟩
    · rw [hmethods, ← hreported.length_eq, List.countP_eq_length_filter]
      exact Nat.zero_add _
    · unfold Ledger.findings
      rw [Ledger.batches_recordAll, List.flatMap_append, List.length_append, hkept, hfindings,
        Nat.zero_add]
    · rw [Ledger.batches_recordAll, hkept, hreports]
  · intro failure hfailure
    rw [hfailure] at hbooked
    obtain ⟨before, failing, after, houtcomes, hall, hfailing, hreports⟩ := hbooked.of_error
    refine ⟨before, failing, after, houtcomes, hall, hfailing, ?_⟩
    rw [Ledger.batches_recordAll, hkept, hreports]
  · rintro chunks rfl
    exact analyzeInChunks_eq context chunks

end ExceptionFlow
