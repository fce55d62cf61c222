import ExceptionFlow.Proofs.Operating
/-!
The states that logs and detectors come to, with a memo that others may use in between. What holds
of every event that an instruction raises holds of every event in a log, of every event in a
detector and of every event behind a finding.
-/
namespace ExceptionFlow

/-- The logs that can be taken down, with the memo at that time. The memo may be used elsewhere in
between, and regions are open to changes from outside. -/
inductive FlowLog.Reachable (context : Context) : FlowLog → Memo → Prop where
  | fresh {memo : Memo} (hmemo : memo.Reachable context) : Reachable context {} memo
  | elsewhere {flow : FlowLog} {memo : Memo} (hflow : Reachable context flow memo)
      (name : ClassName) : Reachable context flow ((context.resolve name).run memo).memo
  | instruction {flow : FlowLog} {memo : Memo} (hflow : Reachable context flow memo)
      (instruction : Instruction) :
      Reachable context ((flow.recordInstruction context instruction).run memo).value
        ((flow.recordInstruction context instruction).run memo).memo
  | entry {flow : FlowLog} {memo : Memo} (hflow : Reachable context flow memo)
      (entry : TableEntry) :
      Reachable context ((flow.recordEntry context entry).run memo).value
        ((flow.recordEntry context entry).run memo).memo
  | declared {flow : FlowLog} {memo : Memo} (hflow : Reachable context flow memo)
      (clause : ThrowsClause) : Reachable context (flow.addDeclared clause) memo
  | regions {flow : FlowLog} {memo : Memo} (hflow : Reachable context flow memo)
      (regions : List GuardedRegion) : Reachable context { flow with regions } memo
  | reset {flow : FlowLog} {memo : Memo} (hflow : Reachable context flow memo) :
      Reachable context {} memo

/-- The detectors that operations lead to, with the memo at that time. -/
inductive Detector.Reachable (context : Context) : Detector → Memo → Prop where
  | fresh {memo : Memo} (hmemo : memo.Reachable context) : Reachable context {} memo
  | elsewhere {detector : Detector} {memo : Memo} (hdetector : Reachable context detector memo)
      (name : ClassName) : Reachable context detector ((context.resolve name).run memo).memo
  | apply {detector : Detector} {memo : Memo} (hdetector : Reachable context detector memo)
      (operation : Operation) :
      Reachable context ((detector.apply context operation).run memo).value.detector
        ((detector.apply context operation).run memo).memo

variable {context : Context}

/-- The property holds of every event that an instruction raises. -/
def Context.Marks (context : Context) (P : ThrowEvent → Prop) : Prop :=
  ∀ call instruction events, context.Raises call instruction events → ∀ event ∈ events, P event

theorem Context.Records.forall_mem {P : ThrowEvent → Prop} (hmarks : context.Marks P)
    {call : Option (ClassName × String)} {code : List Instruction} {events : List ThrowEvent}
    (h : context.Records context.Raises call code events) : ∀ event ∈ events, P event := by
  induction h with
  | nil => simp
  | cons hraised _ ih => exact List.forall_mem_append.mpr ⟨hmarks _ _ _ hraised, ih⟩

theorem FlowLog.forall_mem_afterInstruction {P : ThrowEvent → Prop} (hmarks : context.Marks P)
    {flow : FlowLog} (hflow : ∀ event ∈ flow.events, P event) {instruction : Instruction}
    {events : List ThrowEvent}
    (hraised : context.Raised context.Answers flow.lastCall instruction events) :
    ∀ event ∈ (flow.afterInstruction context instruction.kind events).events, P event :=
  List.forall_mem_append.mpr ⟨hflow, hmarks _ _ _ hraised.raises⟩

theorem FlowLog.Reachable.memo_reachable {flow : FlowLog} {memo : Memo}
    (h : flow.Reachable context memo) : memo.Reachable context := by
  induction h with
  | fresh hmemo => exact hmemo
  | elsewhere _ name ih => exact ih.resolve name
  | instruction _ instruction ih =>
      exact (recordInstruction_plainly context.resolves_reachable _ instruction _ ih).1
  | entry _ entry ih => exact (recordEntry_plainly context.resolves_reachable _ entry _ ih).1
  | declared _ _ ih => exact ih
  | regions _ _ ih => exact ih
  | reset _ ih => exact ih

theorem FlowLog.Reachable.forall_mem {P : ThrowEvent → Prop} (hmarks : context.Marks P)
    {flow : FlowLog} {memo : Memo} (h : flow.Reachable context memo) :
    ∀ event ∈ flow.events, P event := by
  induction h with
  | fresh => simp
  | elsewhere _ _ ih => exact ih
  | instruction hflow instruction ih =>
      obtain ⟨events, hraised, hnext⟩ := (recordInstruction_plainly context.resolves_reachable _
        instruction _ hflow.memo_reachable).2.2
      rw [hnext]
      exact forall_mem_afterInstruction hmarks ih hraised
  | entry hflow entry ih =>
      obtain ⟨region, _, hnext⟩ := (recordEntry_plainly context.resolves_reachable _ entry _
        hflow.memo_reachable).2.2
      rw [hnext]
      exact ih
  | declared _ _ ih => exact ih
  | regions _ _ ih => exact ih
  | reset => simp

namespace Detector

/-- The detector is empty or in the middle of a method, and the property holds of its events. -/
def Tracks (P : ThrowEvent → Prop) (detector : Detector) : Prop :=
  detector = {} ∨ ∃ body flow, detector = scanning body flow ∧ ∀ event ∈ flow.events, P event

def Backs (P : ThrowEvent → Prop) (flushes : List Flush) : Prop :=
  ∀ flush ∈ flushes, ∃ body flow, flush.1 = FlowLog.batch flow body ∧ ∀ event ∈ flow.events, P event

variable {P : ThrowEvent → Prop}

theorem tracks_empty : Tracks P {} :=
  Or.inl rfl

theorem backs_nil : Backs P [] := by
  simp [Backs]

theorem Backs.append {first second : List Flush} (hfirst : Backs P first)
    (hsecond : Backs P second) : Backs P (first ++ second) :=
  List.forall_mem_append.mpr ⟨hfirst, hsecond⟩

theorem backs_batch {body : MethodBody} {flow : FlowLog} {verdict : Except Failure Unit}
    (hflow : ∀ event ∈ flow.events, P event) : Backs P [(flow.batch body, verdict)] :=
  List.forall_mem_singleton.mpr ⟨body, flow, rfl, hflow⟩

namespace Tracks

variable {detector : Detector}

theorem settled (h : Tracks P detector) : detector.Settled := by
  rcases h with rfl | ⟨body, flow, rfl, -⟩
  · exact .idle
  · exact .scanning body flow

theorem events (h : Tracks P detector) : ∀ event ∈ detector.flow.events, P event := by
  rcases h with rfl | ⟨body, flow, rfl, hflow⟩
  · simp
  · exact hflow

end Tracks

section Ways

variable {detector : Detector}

theorem Ran.backs (hmarks : context.Marks P) {body : MethodBody} {reply : Reply Nat}
    {flushes : List Flush} (h : Ran context (context.Raised context.Answers) body reply flushes) :
    Backs P flushes := by
  cases h with
  | stray _ _ hflushes =>
      rw [hflushes]
      exact backs_nil
  | done _ _ hrecords _ hflushes =>
      rw [hflushes]
      exact backs_batch ((hrecords.mono fun _ _ _ hraised => hraised.raises).forall_mem hmarks)

theorem Handed.backs (hmarks : context.Marks P) {body : MethodBody} {reply : Reply Nat}
    {flushes : List Flush}
    (h : Handed context (context.Raised context.Answers) detector body reply flushes) :
    Backs P flushes := by
  cases h with
  | ran _ hran => exact hran.backs hmarks
  | busy _ _ hflushes =>
      rw [hflushes]
      exact backs_nil

theorem HandedAll.backs (hmarks : context.Marks P) {tally : Tally} {bodies : List MethodBody}
    {reply : Reply Tally} {flushes : List Flush}
    (h : HandedAll context (context.Raised context.Answers) detector tally bodies reply flushes) :
    Backs P flushes := by
  induction h with
  | nil => exact backs_nil
  | skip _ _ ih => exact ih
  | failed _ hbody _ => exact hbody.backs hmarks
  | passed _ hbody _ _ ih => exact (hbody.backs hmarks).append ih

theorem Performs.backs (hmarks : context.Marks P) (h : Tracks P detector) {operation : Operation}
    {reply : Reply Answer} {flushes : List Flush}
    (hperforms :
      Performs context (context.Raised context.Answers) detector operation reply flushes) :
    Backs P flushes := by
  cases hperforms with
  | finished hdetector =>
      subst hdetector
      exact backs_batch h.events
  | ranMethod _ hbody => exact hbody.backs hmarks
  | ranClass hmethods => exact hmethods.backs hmarks
  | _ => exact backs_nil

theorem Performs.tracks (hmarks : context.Marks P) (h : Tracks P detector) {operation : Operation}
    {reply : Reply Answer} {flushes : List Flush}
    (hperforms :
      Performs context (context.Raised context.Answers) detector operation reply flushes) :
    Tracks P reply.detector := by
  cases hperforms with
  | started => exact Or.inr ⟨_, _, rfl, by simp [startLog]⟩
  | startedTwice | outOfPlace | strayed | noCode => exact h
  | entered hdetector _ =>
      subst hdetector
      exact Or.inr ⟨_, _, rfl, h.events⟩
  | stepped hdetector _ hraised =>
      subst hdetector
      exact Or.inr ⟨_, _, rfl, FlowLog.forall_mem_afterInstruction hmarks h.events hraised⟩
  | finished | reset => exact tracks_empty
  | ranMethod _ hbody => exact Or.inl hbody.detector_eq
  | ranClass hmethods =>
      rcases hmethods.detector_eq with hsame | hempty
      · exact hsame.symm ▸ h
      · exact Or.inl hempty

end Ways

/-- The contract that all operations of a detector keep. -/
theorem apply_keepsTrack (hmarks : context.Marks P) {detector : Detector} (h : Tracks P detector)
    (operation : Operation) :
    (detector.apply context operation).Ensures (Memo.Reachable context) fun reply flushes =>
      Tracks P reply.detector ∧ Backs P flushes :=
  (apply_performs context.resolves_reachable h.settled operation).mono fun _ _ hperforms =>
    ⟨hperforms.tracks hmarks h, hperforms.backs hmarks h⟩

namespace Reachable

variable {detector : Detector} {memo : Memo}

/-- A run of operations keeps what a single one keeps. -/
theorem tracks (hmarks : context.Marks P) (h : detector.Reachable context memo) :
    memo.Reachable context ∧ Tracks P detector := by
  induction h with
  | fresh hmemo => exact ⟨hmemo, tracks_empty⟩
  | elsewhere _ name ih => exact ⟨ih.1.resolve name, ih.2⟩
  | apply _ operation ih =>
      obtain ⟨hmemo, htracks, _⟩ := apply_keepsTrack hmarks ih.2 operation _ ih.1
      exact ⟨hmemo, htracks⟩

theorem memo_reachable (h : detector.Reachable context memo) : memo.Reachable context :=
  (h.tracks fun _ _ _ _ _ _ => trivial : _ ∧ Tracks (fun _ => True) detector).1

theorem eq_empty_of_idle (h : detector.Reachable context memo) (hidle : detector.phase = .idle) :
    detector = {} := by
  have htracks : Tracks (fun _ => True) detector := (h.tracks fun _ _ _ _ _ _ => trivial).2
  rcases htracks with hempty | ⟨body, flow, rfl, _⟩
  · exact hempty
  · cases hidle

end Reachable

end Detector

/-- What holds of every event raised and its superclasses holds of every finding and its
superclasses. -/
theorem Context.Marks.findings {P : List ClassName → Prop} (hmode : context.usesHierarchy = true)
    (hmarks : context.Marks fun event =>
      context.Admits event.exception ∧ P event.exception.ancestors)
    {detector : Detector} {memo : Memo} (hdetector : detector.Reachable context memo)
    (operation : Operation) {batch : Batch}
    (hbatch : batch ∈ ((detector.apply context operation).run memo).batches) {finding : Finding}
    (hfinding : finding ∈ batch.findings) {above : List ClassName}
    (habove : Ascent context.source finding.exception above) : P (finding.exception :: above) := by
  obtain ⟨hmemo, htracks⟩ := hdetector.tracks hmarks
  obtain ⟨_, _, hbacks⟩ := Detector.apply_keepsTrack hmarks htracks operation memo hmemo
  rw [← Outcome.map_flushes] at hbatch
  obtain ⟨flush, hflush, rfl⟩ := List.mem_map.mp hbatch
  obtain ⟨body, flow, hflow, hevents⟩ := hbacks flush hflush
  rw [hflow] at hfinding
  obtain ⟨event, hescapes, rfl⟩ := List.mem_map.mp hfinding
  obtain ⟨hadmits, hproperty⟩ := hevents event (List.mem_filter.mp hescapes).1
  obtain ⟨other, hother, hancestors, _⟩ := hadmits.ascent hmode
  rw [hancestors, hother.unique habove] at hproperty
  exact hproperty

end ExceptionFlow
