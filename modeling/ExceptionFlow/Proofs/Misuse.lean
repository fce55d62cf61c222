import ExceptionFlow.Proofs.Lifecycle
/-!
Operations at the wrong time. A method that is started while another one is in progress, and a row,
an instruction or an end without a method in progress, are refused, and the refusal changes nothing.
A whole method or class that is handed over while a method is in progress is refused as well, but
the detector then cleans up as if its own scan had failed, and the method in progress is lost.
-/
namespace ExceptionFlow

/-- The operation hands over whole methods, which the detector starts and finishes itself. -/
def Operation.isWhole : Operation → Bool
  | .runMethod _ | .runClass _ => true
  | _ => false

/-- Remarks and batches reach the reader of an analysis, log records do not. -/
def Emission.isReported : Emission → Bool
  | .log _ => false
  | .remark _ | .flush _ _ => true

namespace Outcome

variable {α : Type}

/-- A batch was handed over, and it was not taken for this reason. -/
def Untaken (outcome : Outcome α) (failure : Failure) : Prop :=
  ∃ batch, Emission.flush batch (.error failure) ∈ outcome.emitted

theorem untaken_of_flush {outcome : Outcome α} {batch : Batch} {failure : Failure}
    (h : (batch, .error failure) ∈ outcome.flushes) : outcome.Untaken failure := by
  obtain ⟨emission, hemission, hflush⟩ := List.mem_filterMap.mp h
  cases emission with
  | flush other verdict =>
      cases hflush
      exact ⟨batch, hemission⟩
  | log record => cases hflush
  | remark said => cases hflush

end Outcome

namespace Detector

variable {context : Context} {detector : Detector} {visited : List TableEntry} {memo : Memo}
  {failure : Failure} {detail : String}

theorem error_of_map {α β : Type} {f : α → β} {result : Except Failure α}
    (h : result.map f = .error failure) : result = .error failure := by
  cases result with
  | error other => exact congrArg Except.error (Except.error.inj h)
  | ok value => cases h

section Untaken

variable {raises : Option (ClassName × String) → Instruction → List ThrowEvent → Prop}
  {flushes : List Flush}

theorem Ran.exists_untaken {body : MethodBody} {reply : Reply Nat}
    (h : Ran context raises body reply flushes)
    (hresult : reply.result = .error (.invalidState detail)) :
    ∃ batch, (batch, .error (.invalidState detail)) ∈ flushes := by
  cases h with
  | stray _ hreply _ =>
      rw [hreply] at hresult
      cases hresult
  | @done flow _ _ _ hreply hflushes =>
      rw [hreply] at hresult
      rw [hflushes, error_of_map hresult]
      exact ⟨flow.batch body, List.mem_singleton_self _⟩

/-- From a new detector, methods end with such a failure only if a batch is not taken. -/
theorem HandedAll.exists_untaken {tally : Tally} {bodies : List MethodBody} {reply : Reply Tally}
    (h : HandedAll context raises detector tally bodies reply flushes) (hdetector : detector = {})
    (hresult : reply.result = .error (.invalidState detail)) :
    ∃ batch, (batch, .error (.invalidState detail)) ∈ flushes := by
  induction h with
  | nil => cases hresult
  | skip _ _ ih => exact ih hdetector hresult
  | failed _ hbody hfailed =>
      subst hdetector
      obtain rfl := Except.error.inj hresult
      exact hbody.ran_of_new.exists_untaken hfailed
  | passed _ _ _ _ ih =>
      obtain ⟨batch, hbatch⟩ := ih rfl hresult
      exact ⟨batch, List.mem_append_right _ hbatch⟩

end Untaken

/-- With a method in progress, the first method that has code is refused at once, and nothing but
the method in progress is gone. -/
theorem runMethods_scanning (context : Context) (current : MethodBody) (flow : FlowLog)
    (tally : Tally) (bodies : List MethodBody) :
    (scanning current flow).runMethods context tally bodies =
        pure { result := .ok tally, detector := scanning current flow } ∨
      ∃ failure, (scanning current flow).runMethods context tally bodies =
        pure (({} : Detector).refuse failure) := by
  induction bodies with
  | nil => exact Or.inl rfl
  | cons body bodies ih =>
      unfold runMethods
      split
      · rename_i hcode
        obtain ⟨failure, hrun⟩ := runMethod_scanning context current flow hcode
        refine Or.inr ⟨failure, ?_⟩
        rw [hrun, pure_bind]
        rfl
      · exact ih

/-- How an operation comes to answer that the detector is in the wrong state. -/
inductive Rejected (detector : Detector) (memo : Memo) (operation : Operation) (failure : Failure)
    (outcome : Outcome (Reply Answer)) : Prop where
  | kept (hsingle : operation.isWhole = false)
      (houtcome : outcome = ⟨detector.refuse failure, memo, []⟩)
  | lost (hwhole : operation.isWhole = true) (hscanning : detector.phase = .scanning)
      (houtcome : outcome = ⟨({} : Detector).refuse failure, memo, []⟩)
  | untaken (huntaken : outcome.Untaken failure)

theorem apply_rejected (h : detector.Stands visited) (operation : Operation)
    (hresult : ((detector.apply context operation).run memo).value.result =
      .error (.invalidState detail)) :
    Rejected detector memo operation (.invalidState detail)
      ((detector.apply context operation).run memo) := by
  have hperforms := (apply_performs context.resolves_named h.settled operation memo trivial).2
  generalize hvalue : ((detector.apply context operation).run memo).value = reply
    at hperforms hresult
  generalize hflushes : ((detector.apply context operation).run memo).flushes = flushes
    at hperforms
  have huntaken : (∃ batch, (batch, .error (.invalidState detail)) ∈ flushes) →
      Rejected detector memo operation (.invalidState detail)
        ((detector.apply context operation).run memo) := by
    rintro ⟨batch, hbatch⟩
    exact .untaken (Outcome.untaken_of_flush (hflushes ▸ hbatch))
  cases hperforms with
  | started | entered | stepped | strayed | reset | noCode => cases hresult
  | startedTwice hdetector =>
      subst hdetector
      obtain rfl := Except.error.inj hresult
      refine .kept rfl ?_
      rw [← hvalue]
      rfl
  | outOfPlace hdetector hneeds =>
      subst hdetector
      obtain rfl := Except.error.inj hresult
      cases operation with
      | addEntry | step | finish =>
          refine .kept rfl ?_
          rw [← hvalue]
          rfl
      | _ => cases hneeds
  | @finished body flow _ =>
      refine huntaken ⟨flow.batch body, ?_⟩
      rw [error_of_map hresult]
      exact List.mem_singleton_self _
  | ranMethod hcode hbody =>
      cases h with
      | idle => exact huntaken (hbody.ran_of_new.exists_untaken (error_of_map hresult))
      | @scanning current flow _ _ =>
          obtain ⟨failure, hrun⟩ := runMethod_scanning context current flow hcode
          rw [← hvalue] at hresult
          simp only [apply, hrun, pure_bind] at hresult ⊢
          obtain rfl := Except.error.inj hresult
          exact .lost rfl rfl rfl
  | @ranClass cls _ _ hmethods =>
      cases h with
      | idle => exact huntaken (hmethods.exists_untaken rfl (error_of_map hresult))
      | @scanning current flow _ _ =>
          rw [← hvalue] at hresult
          rcases runMethods_scanning context current flow {} cls.methods with hrun | ⟨failure, hrun⟩
          · simp only [apply, runClass, hrun, pure_bind] at hresult
            cases hresult
          · simp only [apply, runClass, hrun, pure_bind] at hresult ⊢
            obtain rfl := Except.error.inj hresult
            exact .lost rfl rfl rfl

/-- The detector is as it was, and nothing was handed to the reader. -/
structure LeftAlone (detector : Detector) (outcome : Outcome (Reply Answer)) : Prop where
  same : outcome.value.detector = detector
  silent : ∀ emission ∈ outcome.emitted, emission.isReported = false

theorem not_leftAlone_of_untaken {outcome : Outcome (Reply Answer)}
    (h : outcome.Untaken failure) : ¬ detector.LeftAlone outcome := by
  intro halone
  obtain ⟨batch, hbatch⟩ := h
  cases halone.silent _ hbatch

end Detector

/-- An operation that is refused because of the state of the detector leaves everything alone
exactly if it is a single step and the refusal is the detector's own. A whole method or class that
is refused takes the method in progress with it: the detector is new again, and nobody hears of
it. -/
theorem leftAlone_iff_of_invalidState (context : Context) (detector : Detector) (memo : Memo)
    (visited : List TableEntry) (operation : Operation) (detail : String)
    (outcome : Outcome (Reply Answer)) (h : Detector.Operated detector memo visited)
    (houtcome : (detector.apply context operation).run memo = outcome)
    (hresult : outcome.value.result = .error (.invalidState detail)) :
    (detector.LeftAlone outcome ↔
        operation.isWhole = false ∧ ¬ outcome.Untaken (.invalidState detail)) ∧
      (operation.isWhole = true → ¬ outcome.Untaken (.invalidState detail) →
        detector.phase = .scanning ∧
          outcome = ⟨({} : Detector).refuse (.invalidState detail), memo, []⟩) := by
  subst houtcome
  have hrejected := Detector.apply_rejected h.stands operation hresult
  generalize (detector.apply context operation).run memo = outcome at hrejected
  cases hrejected with
  | kept hsingle houtcome =>
      subst houtcome
      refine ⟨⟨fun _ => ⟨hsingle, ?_⟩, fun _ => ⟨rfl, by simp⟩⟩, ?_⟩
      · rintro ⟨batch, hbatch⟩
        cases hbatch
      · intro hwhole
        rw [hsingle] at hwhole
        cases hwhole
  | lost hwhole hscanning houtcome =>
      subst houtcome
      refine ⟨⟨fun halone => ?_, fun hsingle => ?_⟩, fun _ _ => ⟨hscanning, rfl⟩⟩
      · rw [← halone.same] at hscanning
        cases hscanning
      · rw [hwhole] at hsingle
        cases hsingle.1
  | untaken huntaken =>
      refine ⟨⟨fun halone => ?_, fun hsingle => ?_⟩, fun _ htaken => ?_⟩
      · exact absurd halone (Detector.not_leftAlone_of_untaken huntaken)
      · exact absurd huntaken hsingle.2
      · exact absurd huntaken htaken

/-- A second start does no harm to the method in progress; a whole method does. -/
theorem leftAlone_iff_of_invalidState_guarded :
    ∃ detector memo visited, Detector.Operated detector memo visited ∧
      detector.phase = .scanning ∧ detector.flow.regions.length = 1 ∧
      detector.LeftAlone ((detector.apply refusingContext (.start guardedBody)).run memo) ∧
      ¬ detector.LeftAlone
        ((detector.apply refusingContext (.runMethod guardedBody)).run memo) := by
  have hoperated := (Detector.Operated.new.apply refusingContext (.start guardedBody)).apply
    refusingContext (.addEntry guardedRow)
  refine ⟨_, _, _, hoperated, rfl, rfl, ?_, ?_⟩
  · refine (leftAlone_iff_of_invalidState _ _ _ _ _ _ _ hoperated rfl rfl).1.mpr ⟨rfl, ?_⟩
    rintro ⟨batch, hbatch⟩
    cases hbatch
  · intro halone
    cases ((leftAlone_iff_of_invalidState _ _ _ _ _ _ _ hoperated rfl rfl).1.mp halone).1

end ExceptionFlow
